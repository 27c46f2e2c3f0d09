import Intercore.Proofs.Mailbox.Queue
import Intercore.Proofs.Mailbox.Traffic

/-!
# Send-acknowledged flags

To acknowledge a message latches a flag at the core that sent it. Whoever keeps an outbox pumps after
each post and after each interrupt that reports this flag, and at no other time. So the flag must not
get lost while messages wait: nothing else would ever send them.

A lane is awaited if a message on it is not acknowledged yet, or else the flag is latched. In the end
this holds of every outbox that is not empty.
-/

namespace Intercore.Mailbox

namespace Channel

/-- The send-acknowledged flag of a channel. -/
def ackBit (ch : Channel) : Fin 32 := ⟨ch.val + 16, by have := ch.val_lt; omega⟩

/-- Whether the send-acknowledged flag of a channel is set in a word. -/
def acked (ch : Channel) (w : UInt32) : Bool := w &&& ch.ackMask ≠ 0

lemma acked_eq (ch : Channel) (w : UInt32) : ch.acked w = hasBit ch.ackBit w := by
  have hmask : ch.ackMask = 1 <<< UInt32.ofNat ch.ackBit.val := by
    revert ch
    decide
  rw [acked, hmask, hasBit]

@[simp] lemma acked_and (ch : Channel) (w w' : UInt32) :
    ch.acked (w &&& w') = (ch.acked w && ch.acked w') := by
  simp [acked_eq]

@[simp] lemma acked_or (ch : Channel) (w w' : UInt32) :
    ch.acked (w ||| w') = (ch.acked w || ch.acked w') := by
  simp [acked_eq]

@[simp] lemma acked_not (ch : Channel) (w : UInt32) : ch.acked (~~~w) = !ch.acked w := by
  simp [acked_eq]

@[simp] lemma acked_mask (ch ch' : Channel) : ch.acked ch'.mask = false := by
  revert ch ch'
  decide

@[simp] lemma acked_ackBits (ch : Channel) (w : UInt32) : ch.acked (ackBits w) = ch.acked w := by
  have hhigh : ch.acked ((1 <<< ackShift) - 1) = false := by
    revert ch
    decide
  simp [ackBits, hhigh]

@[simp] lemma acked_shiftLeft_ackShift (ch : Channel) (w : UInt32) :
    ch.acked (w <<< ackShift) = ch.marked w := by
  have hlow : ch.val < 32 := ch.bit.isLt
  have hhigh : ch.val + 16 < 32 := ch.ackBit.isLt
  simp [acked_eq, marked_eq, hasBit_eq, ackShift, bit, ackBit, hhigh, BitVec.getLsbD_eq_getElem hlow]

@[simp] lemma marked_shiftRight_ackShift (ch : Channel) (w : UInt32) :
    ch.marked (w >>> ackShift) = ch.acked w := by
  simp [acked_eq, marked_eq, hasBit_eq, ackShift, bit, ackBit, Nat.add_comm]

end Channel

namespace Lane

/-- Whether an access by one core clears the send-acknowledged flag of a lane. -/
def clearsAck (l : Lane) (side : Side) : Access Register → Bool
  | .write .intsts bits => side = l.source ∧ l.channel.acked bits
  | _ => false

/-- An access that is answered, and that neither sends on a lane nor clears its send-acknowledged
flag. -/
def Spares (l : Lane) (side : Side) (q : Access Register) : Prop :=
  isServed q = true ∧ l.touch side q ≠ some .send ∧ l.clearsAck side q = false

instance (l : Lane) (side : Side) (q : Access Register) : Decidable (l.Spares side q) :=
  inferInstanceAs (Decidable (_ ∧ _))

end Lane

namespace Controller

variable {c : Controller} {l : Lane} {side : Side} {q : Access Register}

/-- The send-acknowledged flag of a lane. -/
def acked (c : Controller) (l : Lane) : Bool := l.channel.acked (c.intsts.get l.source)

/-- Whether the source of a lane has something to wait for. -/
def awaited (c : Controller) (l : Lane) : Bool := (c.lane l).full || c.acked l

/-- The flag stays latched unless it is cleared. -/
lemma acked_handler (hq : isServed q = true) (hclears : l.clearsAck side q = false)
    (hacked : c.acked l = true) : (handler side q c).2.acked l = true := by
  match q, hq with
  | .read .txsts, _ | .read .rxsts, _ | .read .inten, _ | .read .intsts, _ | .read .txctl, _
  | .read .rxctl, _ | .pause, _ | .write .txsts _, _ | .write .rxsts _, _ | .write .inten _, _
  | .write (.rmdat _ _) _, _ => exact hacked
  | .read (.rmdat ch word), hq | .read (.tmdat ch word), hq | .write (.tmdat ch word) _, hq =>
    simp only [isServed, Bool.and_eq_true, decide_eq_true_eq] at hq
    simp only [handler, slotIndex_of_lt hq.1 hq.2]
    exact hacked
  | .write .txctl mask, _ | .write .rxctl mask, _ =>
    simp only [handler, trigger, acknowledge, acked, Both.get_set]
    split
    next heq =>
      rw [acked, heq] at hacked
      simp [hacked]
    next => exact hacked
  | .write .intsts bits, _ =>
    simp only [handler, acked, Both.get_set]
    split
    next heq =>
      have hbits : l.channel.acked bits = false := by simpa [Lane.clearsAck, heq] using hclears
      rw [acked, heq] at hacked
      simp [hacked, hbits]
    next => exact hacked

/-- To acknowledge a message latches the flag. -/
lemma acked_of_acknowledge (htouch : l.touch side q = some .acknowledge)
    (hfull : (c.lane l).full = true) : (handler side q c).2.acked l = true := by
  match q with
  | .write .rxctl mask =>
    obtain ⟨rfl, hmask⟩ : side = l.source.peer ∧ l.channel.marked mask = true := by
      simpa [Lane.touch] using htouch
    have hfull : l.channel.marked (c.rxsts.get l.source.peer) = true := hfull
    simp [handler, acknowledge, acked, hmask, hfull]
  | .write (.tmdat ch word) value =>
    simp only [Lane.touch] at htouch
    split at htouch
    · split at htouch <;> cases htouch
    · cases htouch
  | .write .txctl mask =>
    simp only [Lane.touch] at htouch
    split at htouch <;> cases htouch
  | .read _ | .pause | .write .txsts _ | .write .rxsts _ | .write .inten _ | .write .intsts _
  | .write (.rmdat _ _) _ => cases htouch

/-- A lane is awaited once something was sent on it, and until its flag is cleared. -/
lemma awaited_handler (hq : isServed q = true)
    (h : l.touch side q = some .send ∨ c.awaited l = true ∧ l.clearsAck side q = false) :
    (handler side q c).2.awaited l = true := by
  obtain ⟨r, -, hlane⟩ := handler_lane side c l hq
  rcases h with hsend | ⟨hawaited, hclears⟩
  · rw [hsend] at hlane
    rw [awaited, hlane]
    rfl
  rw [awaited, Bool.or_eq_true] at hawaited ⊢
  rcases hawaited with hfull | hacked
  · cases htouch : l.touch side q with
    | none =>
      rw [htouch] at hlane
      exact .inl (hlane ▸ hfull)
    | some touch =>
      rw [htouch] at hlane
      cases touch with
      | put word value => exact .inl (hlane ▸ hfull)
      | send => exact .inl (hlane ▸ rfl)
      | acknowledge => exact .inr (acked_of_acknowledge htouch hfull)
  · exact .inr (acked_handler hq hclears hacked)

end Controller

/-!
### Who does what
-/

/-- What the core with the outbox does, apart from handling interrupts. It sends on the lane only through
the outbox. -/
inductive Deed (l : Lane)
  /-- Posts a message, and pumps whether or not it was accepted. -/
  | post (msg : Message)
  | recv (ch : Channel)
  | trySend (ch : Channel) (msg : Message) (h : l.channel ≠ ch)
  | send (ch : Channel) (msg : Message) (h : l.channel ≠ ch)
  | enable (bits : UInt32)
  | disable (bits : UInt32)
  /-- Makes a single access by hand. -/
  | access (q : Access Register) (h : l.Spares l.source q)

namespace Deed

variable {l : Lane} {α : Type}

abbrev Answer : Deed l → Type
  | post _ => Except Message Unit
  | recv _ => Option Message
  | trySend _ _ _ => Except SendError Unit
  | send _ _ _ | enable _ | disable _ => Unit
  | access q _ => Request.Answer q

instance : Request (Deed l) := ⟨Answer⟩

/-- Whether a message was accepted, and the outbox afterwards. -/
def posted (msg : Message) (o : Outbox) : Except Message Unit × Outbox :=
  match o.post msg with
  | .ok o => (.ok (), o)
  | .error back => (.error back, o)

def program : (k : Deed l) → Outbox → Prog (Request.Answer k × Outbox)
  | post msg, o => do return ((posted msg o).1, (← (posted msg o).2.pump).2)
  | recv ch, o => do return (← Mailbox.recv ch, o)
  | trySend ch msg _, o => do return (← Mailbox.trySend ch msg, o)
  | send ch msg _, o => do return (← Mailbox.send ch msg, o)
  | enable bits, o => do return (← Mailbox.enable bits, o)
  | disable bits, o => do return (← Mailbox.disable bits, o)
  | access q _, o => do return (← .request q, o)

/-- Does one deed after the other. -/
def drive : Program (Deed l) α → Outbox → Prog (α × Outbox)
  | .done a, o => return (a, o)
  | .ask k next, o => do
    let (r, o) ← k.program o
    drive (next r) o

/-- Handles the interrupts, and pumps if an acknowledgement on the lane was reported. For each message
that it receives it may do any number of deeds. -/
def attend (deliver : Channel → Message → Program (Deed l) Unit) (o : Outbox) :
    Prog (UInt32 × Outbox) := do
  let (o, bits) ← handleInterruptWith (fun ch msg o => do return (← drive (deliver ch msg) o).2) o
  if bits &&& l.channel.mask ≠ 0 then return (bits, (← o.pump).2) else return (bits, o)

end Deed

/-!
### What it comes to
-/

namespace Lane

/-- Whether one core finds by an answer that it cannot send on a lane. -/
def findsBusy (l : Lane) (side : Side) : (q : Access Register) → Request.Answer q → Bool
  | .read .txsts, (r : UInt32) => side = l.source ∧ l.channel.marked r = false
  | _, _ => false

/-- What one core can count on if the others spare a lane. It knows no more of the lane than that it is
awaited. -/
def attention (l : Lane) (side : Side) : Contract (Access Register) Bool where
  allows _ q := isServed q = true
  answers v q r v' :=
    l.touch side q = some .send ∨ l.findsBusy side q r = true ∨
      v = true ∧ l.clearsAck side q = false → v' = true

variable {l : Lane} {side : Side} {v : Bool} {α : Type}

lemma keeps_spares {p : Prog α} (hp : p.All (l.Spares side)) :
    p.Keeps (l.attention side) (fun _ v' => v = true → v' = true) v := by
  refine hp.keeps id ?_
  intro q w hq hw
  refine ⟨hq.1, ?_⟩
  intro r v' hv' hv
  exact hv' (.inr (.inr ⟨hw hv, hq.2.2⟩))

/-- The core at the far end cannot do anything else. -/
lemma spares_peer {q : Access Register} (hq : isServed q = true) : l.Spares l.source.peer q := by
  refine ⟨hq, ?_, ?_⟩
  · cases q with
    | read r | pause => simp [touch]
    | write r value =>
      cases r with
      | txsts | rxsts | inten | intsts | txctl | rmdat => simp [touch]
      | rxctl | tmdat =>
        simp only [touch]
        repeat' split
        all_goals simp
  · cases q with
    | read r | pause => rfl
    | write r value =>
      cases r with
      | intsts => simp [clearsAck]
      | txsts | rxsts | inten | txctl | rxctl | tmdat | rmdat => rfl

lemma recv_spares (ch : Channel) : (recv ch).All (l.Spares side) := by
  apply recv_all
  · simp [Spares, isServed, touch, clearsAck]
  · simp [Spares, isServed, touch, clearsAck]
  · intro word
    simp [Spares, isServed, touch, clearsAck, ch.val_lt]
  · simp [Spares, isServed, touch, clearsAck]

lemma send_spares {ch : Channel} (msg : Message) (hne : l.channel ≠ ch) :
    (send ch msg).All (l.Spares side) := by
  apply send_all
  · simp [Spares, isServed, touch, clearsAck]
  · intro word value
    simp [Spares, isServed, touch, clearsAck, ch.val_lt]
  · simp [Spares, isServed, touch, clearsAck, hne]

lemma trySend_spares {ch : Channel} (msg : Message) (hne : l.channel ≠ ch) :
    (trySend ch msg).All (l.Spares side) :=
  trySend_all ⟨rfl, nofun, rfl⟩ (send_spares msg hne)

lemma enable_spares (bits : UInt32) : (enable bits).All (l.Spares side) :=
  ⟨⟨rfl, nofun, rfl⟩, fun _ => ⟨⟨rfl, nofun, rfl⟩, fun _ => trivial⟩⟩

lemma disable_spares (bits : UInt32) : (disable bits).All (l.Spares side) :=
  ⟨⟨rfl, nofun, rfl⟩, fun _ => ⟨⟨rfl, nofun, rfl⟩, fun _ => trivial⟩⟩

lemma keeps_isTxReady_awaited :
    (isTxReady l.channel).Keeps (l.attention l.source) (fun ready v' => ready = false → v' = true)
      v := by
  refine ⟨rfl, ?_⟩
  intro (status : UInt32) v' hv' hready
  have hbusy : l.channel.marked status = false := hready
  exact hv' (.inr (.inl (by simp [findsBusy, hbusy])))

lemma keeps_send_awaited (msg : Message) :
    (send l.channel msg).Keeps (l.attention l.source) (fun _ v' => v' = true) v := by
  have hput (word : Fin 4) (value : UInt32) :
      isServed (.write (.tmdat l.channel.index word) value) = true := by
    simp [isServed, l.channel.val_lt]
  have hsend : l.touch l.source (.write .txctl l.channel.mask) = some .send := by simp [touch]
  -- the look, the four words and the trigger
  refine ⟨rfl, fun _ _ _ => ⟨hput 0 _, fun _ _ _ => ⟨hput 1 _, fun _ _ _ => ⟨hput 2 _,
    fun _ _ _ => ⟨hput 3 _, fun _ _ _ => ⟨rfl, ?_⟩⟩⟩⟩⟩⟩
  intro _ _ hv'
  exact hv' (.inl hsend)

/-- Whether or not a message goes out, the lane is awaited afterwards. -/
lemma keeps_trySend_awaited (msg : Message) :
    (trySend l.channel msg).Keeps (l.attention l.source) (fun _ v' => v' = true) v := by
  simp only [trySend, Program.bind_eq, Program.pure_eq, Program.keeps_bind]
  apply keeps_isTxReady_awaited.mono
  intro ready v' hready
  cases ready with
  | false => exact hready rfl
  | true =>
    simp only [if_true, Program.keeps_bind]
    apply (keeps_send_awaited msg).mono
    intro _ _ hv'
    exact hv'

end Lane

/-- The source cannot send only if its last message was not acknowledged yet. -/
lemma Controller.awaited_of_findsBusy {c : Controller} {l : Lane} {side : Side}
    {q : Access Register} {r : Request.Answer q}
    (hexclusive : (c.lane l).full = !(c.lane l).ready) (hr : (handler side q c).1 = .ok r)
    (hbusy : l.findsBusy side q r = true) : (handler side q c).2.awaited l = true := by
  match q with
  | .read .txsts =>
    obtain ⟨rfl, hmarked⟩ : side = l.source ∧ l.channel.marked r = false := by
      simpa [Lane.findsBusy] using hbusy
    have hready : (c.lane l).ready = false := (shows_lane rfl hr rfl).symm.trans hmarked
    have hfull : (c.lane l).full = true := by rw [hexclusive, hready, Bool.not_false]
    exact Bool.or_eq_true_iff.mpr (.inl hfull)
  | .read .rxsts | .read .txctl | .read .rxctl | .read .inten | .read .intsts | .read (.tmdat _ _)
  | .read (.rmdat _ _) | .write _ _ | .pause => cases hbusy

namespace Outbox

/-- An outbox of a lane that is awaited, unless no message waits. -/
def Attended (l : Lane) (o : Outbox) (v : Bool) : Prop :=
  o.channel = l.channel ∧ (o.queue ≠ [] → v = true)

variable {l : Lane} {o : Outbox} {v v' : Bool}

lemma Attended.mono (h : o.Attended l v) (hv : v = true → v' = true) : o.Attended l v' :=
  ⟨h.1, fun hne => hv (h.2 hne)⟩

/-- To pump makes up for a flag that was cleared. -/
lemma pump_attended (ho : o.channel = l.channel) :
    o.pump.Keeps (l.attention l.source) (fun r v' => r.2.Attended l v') v := by
  rw [pump]
  cases hqueue : o.queue with
  | nil => exact ⟨ho, fun hne => absurd hqueue hne⟩
  | cons msg rest =>
    simp only [Program.bind_eq, Program.keeps_bind, ho]
    apply (l.keeps_trySend_awaited msg).mono
    rintro r _ rfl
    cases r with
    | ok u => exact ⟨rfl, fun _ => rfl⟩
    | error e => exact ⟨ho, fun _ => rfl⟩

end Outbox

namespace Deed

open Outbox (Attended)

variable {l : Lane} {o : Outbox} {v : Bool} {α : Type}

lemma program_attended_of_spares {p : Prog α} (hp : p.All (l.Spares l.source))
    (h : o.Attended l v) :
    (do return (← p, o) : Prog (α × Outbox)).Keeps (l.attention l.source)
      (fun r v' => r.2.Attended l v') v := by
  simp only [Program.bind_eq, Program.keeps_bind]
  apply (Lane.keeps_spares hp).mono
  intro _ _ hv'
  exact h.mono hv'

lemma channel_posted (msg : Message) (o : Outbox) : (posted msg o).2.channel = o.channel := by
  rw [posted, Outbox.post]
  by_cases hroom : o.queue.length < o.depth
  · rw [if_pos hroom]
  · rw [if_neg hroom]

lemma program_attended (k : Deed l) (h : o.Attended l v) :
    (k.program o).Keeps (l.attention l.source) (fun r v' => r.2.Attended l v') v := by
  cases k with
  | post msg =>
    have hchannel : (posted msg o).2.channel = l.channel := (channel_posted msg o).trans h.1
    simp only [program, Program.bind_eq, Program.keeps_bind]
    apply (Outbox.pump_attended hchannel).mono
    intro _ _ h'
    exact h'
  | recv ch => exact program_attended_of_spares (Lane.recv_spares ch) h
  | trySend ch msg hne => exact program_attended_of_spares (Lane.trySend_spares msg hne) h
  | send ch msg hne => exact program_attended_of_spares (Lane.send_spares msg hne) h
  | enable bits => exact program_attended_of_spares (Lane.enable_spares bits) h
  | disable bits => exact program_attended_of_spares (Lane.disable_spares bits) h
  | access q hq => exact program_attended_of_spares ⟨hq, fun _ => trivial⟩ h

lemma drive_attended (p : Program (Deed l) α) (h : o.Attended l v) :
    (drive p o).Keeps (l.attention l.source) (fun r v' => r.2.Attended l v') v := by
  induction p generalizing o v with
  | done a => exact h
  | ask k next ih =>
    simp only [drive, Program.bind_eq, Program.keeps_bind]
    apply (program_attended k h).mono
    rintro ⟨r, o'⟩ v' h'
    exact ih r h'

lemma drainWith_attended {deliver : Channel → Message → Outbox → Prog Outbox} (pending : UInt32)
    (hdeliver : ∀ ch msg o v, o.Attended l v →
      (deliver ch msg o).Keeps (l.attention l.source) (fun o' v' => o'.Attended l v') v)
    (channels : List Channel) (h : o.Attended l v) :
    (drainWith pending deliver channels o).Keeps (l.attention l.source)
      (fun o' v' => o'.Attended l v') v := by
  induction channels generalizing o v with
  | nil => exact h
  | cons ch rest ih =>
    rw [drainWith]
    split
    · simp only [Program.bind_eq, Program.keeps_bind]
      apply (Lane.keeps_spares (Lane.recv_spares ch)).mono
      intro got v' hv'
      have h' := h.mono hv'
      cases got with
      | none => exact ih h'
      | some msg =>
        simp only [Program.keeps_bind]
        apply (hdeliver ch msg o v' h').mono
        intro o' v'' h''
        exact ih h''
    · exact ih h

/-- If the handler clears the flag it says so. -/
lemma handleInterruptWith_attended {deliver : Channel → Message → Outbox → Prog Outbox}
    (hdeliver : ∀ ch msg o v, o.Attended l v →
      (deliver ch msg o).Keeps (l.attention l.source) (fun o' v' => o'.Attended l v') v)
    (h : o.Attended l v) :
    (handleInterruptWith deliver o).Keeps (l.attention l.source)
      (fun r v' => r.1.channel = l.channel ∧ (l.channel.marked r.2 = false → r.1.Attended l v'))
      v := by
  have hread (r : Register) (hr : l.Spares l.source (.read r)) :
      (Mailbox.read r).All (l.Spares l.source) := ⟨hr, fun _ => trivial⟩
  simp only [handleInterruptWith, Program.bind_eq, Program.keeps_bind]
  apply (Lane.keeps_spares (hread .intsts ⟨rfl, nofun, rfl⟩)).mono
  intro status v₁ hv₁
  apply (Lane.keeps_spares (hread .inten ⟨rfl, nofun, rfl⟩)).mono
  intro enabled v₂ hv₂
  apply (drainWith_attended _ hdeliver _ ((h.mono hv₁).mono hv₂)).mono
  intro o' v₃ h'
  split
  · refine ⟨rfl, ?_⟩
    intro _ v₄ hv₄
    refine ⟨h'.1, ?_⟩
    intro hbits
    apply h'.mono
    intro hv₃
    refine hv₄ (.inr (.inr ⟨hv₃, ?_⟩))
    rw [Channel.marked_shiftRight_ackShift] at hbits
    simp [Lane.clearsAck, hbits]
  · exact ⟨h'.1, fun _ => h'⟩

/-- Then the outbox is pumped, and so it is attended either way. -/
lemma attend_attended (deliver : Channel → Message → Program (Deed l) Unit) (h : o.Attended l v) :
    (attend deliver o).Keeps (l.attention l.source) (fun r v' => r.2.Attended l v') v := by
  have hdeliver : ∀ ch msg o v, Attended l o v →
      (do return (← drive (deliver ch msg) o).2 : Prog Outbox).Keeps (l.attention l.source)
        (fun o' v' => o'.Attended l v') v := by
    intro ch msg o v h
    simp only [Program.bind_eq, Program.keeps_bind]
    apply (drive_attended (deliver ch msg) h).mono
    intro _ _ h'
    exact h'
  simp only [attend, Program.bind_eq, Program.keeps_bind]
  apply (handleInterruptWith_attended hdeliver h).mono
  rintro ⟨o', bits⟩ v' ⟨hchannel, hattended⟩
  dsimp only
  split
  · simp only [Program.keeps_bind]
    apply (Outbox.pump_attended hchannel).mono
    intro _ _ h'
    exact h'
  next hbits => exact hattended (by simpa [Channel.marked] using hbits)

end Deed

/-!
### Runs
-/

/-- A turn of one of the cores. Nothing but the others interferes with it. -/
inductive Turn (l : Lane)
  | act (k : Deed l)
  | attend (deliver : Channel → Message → Program (Deed l) Unit)
  /-- The other core does anything at all. -/
  | peer (p : Prog Unit) (h : p.All fun q => isServed q = true)

namespace Turn

variable {l : Lane}

abbrev Answer : Turn l → Type
  | act k => Request.Answer k
  | attend _ => UInt32
  | peer _ _ => Unit

instance : Request (Turn l) := ⟨Answer⟩

def handler : Handler (Turn l) Station Fault
  | .act k, s => s.perform l.source (k.program s.outbox)
  | .attend deliver, s => s.perform l.source (Deed.attend deliver s.outbox)
  | .peer p _, s => s.perform l.source.peer do return (← p, s.outbox)

end Turn

namespace Scene

variable {l : Lane} {side : Side} {s : Scene}

/-- The others go on to spare the lane, and the lane is either ready or full. -/
structure Calm (l : Lane) (s : Scene) : Prop where
  spares : ∀ batch ∈ s.ahead, ∀ a ∈ batch, l.Spares a.1 a.2
  exclusive : (s.controller.lane l).full = !(s.controller.lane l).ready

lemma Calm.access (hs : s.Calm l) {q : Access Register} (hq : isServed q = true) :
    (s.access side q).2.Calm l :=
  ⟨hs.spares, Controller.exclusive_handler hq hs.exclusive⟩

/-- The others do not let the lane go unattended. -/
lemma Calm.others (hs : s.Calm l) : s.others.Calm l ∧
    (s.controller.awaited l = true → s.others.controller.awaited l = true) := by
  rw [Scene.others]
  split
  · exact ⟨hs, id⟩
  next batch rest hahead =>
    have hspares := hs.spares
    rw [hahead, List.forall_mem_cons] at hspares
    have hrest : Calm l { s with ahead := rest } := ⟨hspares.2, hs.exclusive⟩
    refine List.foldlRecOn (motive := fun t : Scene => t.Calm l ∧
      (s.controller.awaited l = true → t.controller.awaited l = true)) batch _ ⟨hrest, id⟩ ?_
    rintro t ⟨ht, hawaited⟩ a ha
    obtain ⟨hserved, -, hclears⟩ := hspares.1 a ha
    exact ⟨ht.access hserved, fun h =>
      Controller.awaited_handler hserved (.inr ⟨hawaited h, hclears⟩)⟩

lemma attention_servedBy : (l.attention side).ServedBy (handler side)
    fun s v => s.Calm l ∧ s.controller.awaited l = v := by
  rintro q s _ ⟨hs, rfl⟩ hq
  obtain ⟨hcalm, hawaited⟩ := hs.others
  obtain ⟨r, hr, -⟩ := Controller.handler_lane side s.others.controller l hq
  refine ⟨r, (s.others.access side q).2, _, Prod.ext hr rfl, ?_, hcalm.access hq, rfl⟩
  rintro (hsend | hbusy | ⟨hv, hclears⟩)
  · exact Controller.awaited_handler hq (.inl hsend)
  · exact Controller.awaited_of_findsBusy hcalm.exclusive hr hbusy
  · exact Controller.awaited_handler hq (.inr ⟨hawaited hv, hclears⟩)

end Scene

namespace Station

variable {l : Lane} {side : Side} {s : Station} {α : Type}

/-- The outbox is attended. -/
structure Driven (l : Lane) (s : Station) : Prop where
  calm : s.scene.Calm l
  attended : s.outbox.Attended l (s.scene.controller.awaited l)

lemma Driven.perform (hs : s.Driven l) {p : Prog (α × Outbox)}
    (hp : p.Keeps (l.attention side) (fun r v => r.2.Attended l v) (s.scene.controller.awaited l)) :
    ∃ a s', s.perform side p = (.ok a, s') ∧ s'.Driven l := by
  obtain ⟨⟨a, outbox⟩, scene, _, hrun, hpost, hscene, rfl⟩ :=
    hp.run_served Scene.attention_servedBy ⟨hs.calm, rfl⟩
  refine ⟨a, ⟨outbox, scene⟩, ?_, hscene, hpost⟩
  rw [Station.perform, hrun]

lemma Driven.turn (hs : s.Driven l) (k : Turn l) :
    ∃ r s', Turn.handler k s = (.ok r, s') ∧ s'.Driven l := by
  cases k with
  | act k => exact hs.perform (Deed.program_attended k hs.attended)
  | attend deliver => exact hs.perform (Deed.attend_attended deliver hs.attended)
  | peer p hp =>
    have hspares : p.All (l.Spares l.source.peer) := hp.mono fun _ hq => Lane.spares_peer hq
    refine hs.perform ?_
    simp only [Program.bind_eq, Program.keeps_bind]
    apply (Lane.keeps_spares hspares).mono
    intro _ _ hv
    exact hs.attended.mono hv

end Station

/-- An outbox that is pumped after each post and after each interrupt that reports an acknowledgement
does not stall: while messages wait, there is one in the slot that has not been acknowledged, or else the
flag is latched that will have the outbox pumped. -/
theorem outbox_never_stalls (l : Lane) (depth : Nat) (ahead : List (List (Side × Access Register)))
    (h : ∀ batch ∈ ahead, ∀ a ∈ batch, l.Spares a.1 a.2) (turns : Program (Turn l) Unit) :
    ∃ s, turns.run Turn.handler (.start l depth ahead) = (.ok (), s) ∧
      (s.outbox.isEmpty = false →
        (s.scene.controller.lane l).full = true ∧ (s.scene.controller.lane l).ready = false ∨
        s.scene.controller.intsts.get l.source &&& l.channel.ackMask ≠ 0) := by
  obtain ⟨hready, hfull⟩ := Controller.lane_fresh l
  have hcalm : (Scene.start ahead).Calm l := ⟨h, by simp [Scene.start, hready, hfull]⟩
  have hstart : (Station.start l depth ahead).Driven l :=
    ⟨hcalm, rfl, fun hne => absurd rfl hne⟩
  obtain ⟨_, s, hrun, hs⟩ := turns.run_of_step (fun k _ hs => Station.Driven.turn hs k) hstart
  refine ⟨s, hrun, ?_⟩
  intro hwaiting
  have hawaited : s.scene.controller.awaited l = true :=
    hs.attended.2 (by simpa [Outbox.isEmpty] using hwaiting)
  rw [Controller.awaited, Bool.or_eq_true] at hawaited
  rcases hawaited with hfull | hacked
  · refine .inl ⟨hfull, ?_⟩
    simpa [hfull] using hs.calm.exclusive
  · exact .inr (of_decide_eq_true hacked)

/-- The other core receives from a channel. -/
def Turn.receive {l : Lane} (ch : Channel) : Turn l :=
  have hspares : (recv ch).All (l.Spares l.source) := Lane.recv_spares ch
  .peer ((recv ch).bind fun _ => .done ()) <|
    Program.all_bind (hspares.mono fun _ h => h.1) fun _ => trivial

/-- Two messages are posted, the other core takes the first one, and something that came in from it is
delivered and answered by a third message. The interrupt of the channel's acknowledgements is not
enabled, so none of them is reported. -/
def unreported : Program (Turn busyLane) Unit :=
  [.act (.enable busyLane.channel.mask), .act (.post (.replicate 4 1)),
    .act (.post (.replicate 4 2)), .receive busyLane.channel,
    .attend fun _ msg => (Program.request (.post msg)).bind fun _ => .done (),
    .receive busyLane.channel].foldr
      (fun k p => (Program.request k).bind fun _ => p) (.done ())

/-- A message comes in on the same channel. -/
def incoming : List (List (Side × Access Register)) :=
  [[(.rt, .write .txctl busyLane.channel.mask)]]

/-- The slot is empty in the end and a message still waits, so the flag is latched. -/
theorem outbox_never_stalls_unreported :
    (∀ batch ∈ incoming, ∀ a ∈ batch, busyLane.Spares a.1 a.2) ∧
    ∃ s, unreported.run Turn.handler (.start busyLane 2 incoming) = (.ok (), s) ∧
      s.outbox.isEmpty = false ∧ (s.scene.controller.lane busyLane).full = false ∧
      s.scene.controller.intsts.get busyLane.source &&& busyLane.channel.ackMask ≠ 0 := by
  have hincoming : ∀ batch ∈ incoming, ∀ a ∈ batch, busyLane.Spares a.1 a.2 := by decide
  obtain ⟨s, hrun, hawaited⟩ := outbox_never_stalls busyLane 2 incoming hincoming unreported
  have hend : (unreported.run Turn.handler (.start busyLane 2 incoming)).2.outbox.isEmpty = false ∧
      ((unreported.run Turn.handler (.start busyLane 2 incoming)).2.scene.controller.lane
        busyLane).full = false := by
    decide +kernel
  rw [hrun] at hend
  refine ⟨hincoming, s, hrun, hend.1, hend.2, ?_⟩
  rcases hawaited hend.1 with ⟨hfull, -⟩ | hflag
  · exact absurd (hend.2.symm.trans hfull) Bool.false_ne_true
  · exact hflag

end Intercore.Mailbox
