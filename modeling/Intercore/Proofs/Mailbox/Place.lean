import Intercore.Proofs.Mailbox.Operation

/-!
# Places for messages

Without its registers the controller is a place for one message on each lane. Sending fills the place,
receiving empties it, and nothing that is done on one lane is any matter to the others.

The places are said first. Then every operation of the driver is run on the controller, and what it makes
of the ready bits, the available bits and the slots is what it makes of the places.
-/

namespace Intercore.Mailbox

/-- What is done with the controller, each time with nothing else in between. -/
inductive Operation
  | isTxReady (side : Side) (ch : Channel)
  | isRxAvailable (side : Side) (ch : Channel)
  | send (side : Side) (ch : Channel) (msg : Message)
  | trySend (side : Side) (ch : Channel) (msg : Message)
  | recv (side : Side) (ch : Channel)
  /-- Flags are latched with nothing behind them. -/
  | raiseSpurious (side : Side) (bits : UInt32)
  deriving DecidableEq, Repr

namespace Operation

abbrev Answer : Operation → Type
  | isTxReady _ _ | isRxAvailable _ _ => Bool
  | trySend _ _ _ => Except SendError Unit
  | recv _ _ => Option Message
  | send _ _ _ | raiseSpurious _ _ => Unit

instance : Request Operation := ⟨Answer⟩

/-- The lane that an operation is about. -/
def lane? : Operation → Option Lane
  | isTxReady side ch | send side ch _ | trySend side ch _ => some ⟨ch, side⟩
  | isRxAvailable side ch | recv side ch => some ⟨ch, side.peer⟩
  | raiseSpurious _ _ => none

end Operation

/-!
### The places
-/

/-- A place for a message on each lane, with what is counted. -/
@[ext]
structure Places where
  message : Lane → Option Message
  /-- How many messages were replaced before they were received. -/
  overwrites : Nat
  /-- How many messages each core has received. -/
  acks : Both Nat

namespace Places

def empty : Places := ⟨fun _ => none, 0, .same 0⟩

def fill (p : Places) (l : Lane) (msg : Message) : Places :=
  { p with
    message := Function.update p.message l (some msg)
    overwrites := p.overwrites + if (p.message l).isSome then 1 else 0 }

/-- The core at the far end of a lane takes its message out. -/
def take (p : Places) (l : Lane) : Places :=
  { p with
    message := Function.update p.message l none
    acks := p.acks.set l.source.peer (p.acks.get l.source.peer + 1) }

/-- What an operation is answered, and what it makes of the places. -/
def step : (op : Operation) → Places → Request.Answer op × Places
  | .isTxReady side ch, p => ((p.message ⟨ch, side⟩).isNone, p)
  | .isRxAvailable side ch, p => ((p.message ⟨ch, side.peer⟩).isSome, p)
  | .send side ch msg, p => ((), p.fill ⟨ch, side⟩ msg)
  | .trySend side ch msg, p =>
    if (p.message ⟨ch, side⟩).isSome then (.error .busy, p) else (.ok (), p.fill ⟨ch, side⟩ msg)
  | .recv side ch, p =>
    match p.message ⟨ch, side.peer⟩ with
    | some msg => (some msg, p.take ⟨ch, side.peer⟩)
    | none => (none, p)
  | .raiseSpurious _ _, p => ((), p)

def handler : Handler Operation Places Fault := fun op p => (.ok (p.step op).1, (p.step op).2)

/-- No operation affects the place of a lane that it is not about. -/
lemma message_step {l : Lane} {op : Operation} (h : op.lane? ≠ some l) (p : Places) :
    (p.step op).2.message l = p.message l := by
  cases op with
  | isTxReady | isRxAvailable | raiseSpurious => rfl
  | send side ch msg =>
    have hne : l ≠ ⟨ch, side⟩ := fun heq => h (by rw [heq]; rfl)
    exact Function.update_of_ne hne _ _
  | trySend side ch msg =>
    have hne : l ≠ ⟨ch, side⟩ := fun heq => h (by rw [heq]; rfl)
    simp only [step]
    split
    · rfl
    · exact Function.update_of_ne hne _ _
  | recv side ch =>
    have hne : l ≠ ⟨ch, side.peer⟩ := fun heq => h (by rw [heq]; rfl)
    simp only [step]
    split
    · exact Function.update_of_ne hne _ _
    · rfl

end Places

/-!
### The operations on the controller
-/

section Run

variable {c : Controller} {side : Side} {ch : Channel}

namespace Controller

/-- A message is written into the slot of a channel. -/
def store (c : Controller) (side : Side) (ch : Channel) (msg : Message) : Controller :=
  { c with slots := c.slots.set side ((c.slots.get side).set ch.slot msg) }

def clear (c : Controller) (side : Side) (bits : UInt32) : Controller :=
  { c with intsts := c.intsts.set side (c.intsts.get side &&& ~~~bits) }

def sent (c : Controller) (side : Side) (ch : Channel) (msg : Message) : Controller :=
  (c.store side ch msg).trigger side ch.mask

def received (c : Controller) (side : Side) (ch : Channel) : Controller :=
  (c.clear side ch.mask).acknowledge side ch.mask

lemma writeSlot_eq (word : Fin 4) (value : UInt32) : c.writeSlot side ch.slot word value =
    c.store side ch ((c.lane ⟨ch, side⟩).slot.setIfInBounds word value) := by
  simp only [writeSlot, store, lane, set_word]

lemma slot_store (m : Message) : ((c.store side ch m).lane ⟨ch, side⟩).slot = m := by
  simp [store, lane]

lemma store_store (m m' : Message) :
    (c.store side ch m).store side ch m' = c.store side ch m' := by
  cases side with
  | app | rt => simp [store, Both.get, Both.set]

end Controller

lemma run_isTxReady : (isTxReady ch).run (Controller.handler side) c =
    (.ok (c.lane ⟨ch, side⟩).ready, c) := rfl

lemma run_isRxAvailable : (isRxAvailable ch).run (Controller.handler side) c =
    (.ok (c.lane ⟨ch, side.peer⟩).full, c) := by
  simp only [Controller.lane, Side.peer_peer]
  rfl

lemma run_put {word : Nat} (hword : word < 4) (value : UInt32) :
    (write (.tmdat ch.index word) value).run (Controller.handler side) c =
      (.ok (), c.store side ch ((c.lane ⟨ch, side⟩).slot.setIfInBounds word value)) := by
  have hch : ch.index.toNat < 16 := by simpa using ch.val_lt
  rw [← Controller.writeSlot_eq ⟨word, hword⟩]
  simp only [write, Program.request, Program.run, Controller.handler,
    Controller.slotIndex_of_lt hch hword, Channel.toNat_index, Channel.slot]

lemma run_get {word : Nat} (hword : word < 4) :
    (read (.rmdat ch.index word)).run (Controller.handler side) c =
      (.ok (c.lane ⟨ch, side.peer⟩).slot[word], c) := by
  have hch : ch.index.toNat < 16 := by simpa using ch.val_lt
  simp only [read, Program.request, Program.run, Controller.handler,
    Controller.slotIndex_of_lt hch hword, Channel.toNat_index, Channel.slot, Controller.lane]
  rfl

lemma run_fill (msg : Message) : (fill ch msg).run (Controller.handler side) c =
    (.ok (), c.sent side ch msg) := by
  have hwords : #v[msg[0], msg[1], msg[2], msg[3]] = msg :=
    eq_words (by simp) (by simp) (by simp) (by simp)
  simp only [fill, Program.bind_eq, Program.run_bind, run_put (show 0 < 4 by decide),
    run_put (show 1 < 4 by decide), run_put (show 2 < 4 by decide), run_put (show 3 < 4 by decide),
    Controller.slot_store, Controller.store_store, set_words, hwords]
  rfl

lemma run_send (msg : Message) : (send ch msg).run (Controller.handler side) c =
    (.ok (), c.sent side ch msg) := by
  simp only [send, Program.bind_eq, Program.run_bind, run_isTxReady, run_fill]

lemma run_trySend (msg : Message) : (trySend ch msg).run (Controller.handler side) c =
    if (c.lane ⟨ch, side⟩).ready then (.ok (.ok ()), c.sent side ch msg)
    else (.ok (.error .busy), c) := by
  simp only [trySend, Program.bind_eq, Program.pure_eq, Program.run_bind, run_isTxReady]
  split
  · simp only [Program.run_bind, run_send, Program.run_done]
  · rfl

lemma run_recv : (recv ch).run (Controller.handler side) c =
    if (c.lane ⟨ch, side.peer⟩).full then
      (.ok (some (c.lane ⟨ch, side.peer⟩).slot), c.received side ch)
    else (.ok none, c.clear side ch.mask) := by
  have hclear : (write .intsts ch.mask).run (Controller.handler side) c =
      (.ok (), c.clear side ch.mask) := rfl
  have hack : (write .rxctl ch.mask).run (Controller.handler side) (c.clear side ch.mask) =
      (.ok (), c.received side ch) := rfl
  have hlane : (c.clear side ch.mask).lane ⟨ch, side.peer⟩ = c.lane ⟨ch, side.peer⟩ := rfl
  have hwords (m : Message) : #v[m[0], m[1], m[2], m[3]] = m :=
    eq_words (by simp) (by simp) (by simp) (by simp)
  simp only [recv, Program.bind_eq, Program.pure_eq, Program.run_bind, hclear, run_isRxAvailable,
    hlane]
  split
  · simp only [Program.run_bind, run_get (show 0 < 4 by decide), run_get (show 1 < 4 by decide),
      run_get (show 2 < 4 by decide), run_get (show 3 < 4 by decide), hlane, hack,
      Program.run_done, hwords]
  · rfl

end Run

/-!
### What becomes of the places
-/

namespace Channel

/-- On a channel at most one message is replaced. -/
lemma popCount_mask_and (ch : Channel) (w : UInt32) :
    popCount (ch.mask &&& w) = if ch.marked w then 1 else 0 := by
  have hone : popCount ch.mask = 1 := by
    revert ch
    decide
  have hzero : popCount 0 = 0 := by decide
  have hbit : ch.mask &&& w = if ch.marked w then ch.mask else 0 := by
    have htwo : ch.mask.toBitVec = BitVec.twoPow 32 ch.val := toBitVec_shiftLeft_one ch.bit
    rw [UInt32.and_comm, ← UInt32.toBitVec_inj, UInt32.toBitVec_and, htwo, BitVec.and_twoPow,
      marked_eq, hasBit_eq]
    split
    · simp_all [bit]
    · simp_all [bit]
  rw [hbit]
  split
  · exact hone
  · exact hzero

end Channel

lemma LaneState.isSome_inFlight (s : LaneState) : s.inFlight.isSome = s.full := by
  rw [inFlight]
  cases s.full <;> rfl

namespace Controller

variable {c : Controller} {l : Lane} {side : Side} {ch : Channel}

/-- The places that the controller is. -/
def places (c : Controller) : Places := ⟨fun l => (c.lane l).inFlight, c.overwrites, c.acks⟩

/-- A lane is either ready or full. -/
def Exclusive (c : Controller) : Prop := ∀ l, (c.lane l).full = !(c.lane l).ready

lemma exclusive_fresh : fresh.Exclusive := by
  intro l
  obtain ⟨hready, hfull⟩ := lane_fresh l
  rw [hready, hfull]
  rfl

lemma lane_store (msg : Message) :
    (c.store side ch msg).lane l =
      if l = ⟨ch, side⟩ then { c.lane l with slot := msg } else c.lane l := by
  obtain ⟨ch', source⟩ := l
  by_cases hside : source = side
  · subst hside
    by_cases hch : ch' = ch
    · simp [store, lane, hch]
    · have hval : ch.slot.val ≠ ch'.slot.val := fun h => hch (Fin.ext h.symm)
      simp [store, lane, hch, hval]
  · simp [store, lane, Both.get_set, hside]

lemma lane_sent (msg : Message) :
    (c.sent side ch msg).lane l = if l = ⟨ch, side⟩ then ⟨false, true, msg⟩ else c.lane l := by
  have hlane : (side = l.source ∧ l.channel.marked ch.mask = true) ↔ l = ⟨ch, side⟩ := by
    obtain ⟨ch', source⟩ := l
    simp [and_comm, eq_comm]
  rw [sent, lane_trigger, lane_store]
  simp only [hlane]
  split
  · rfl
  · rfl

lemma lane_received :
    (c.received side ch).lane l =
      if l = ⟨ch, side.peer⟩ then (c.lane l).after .acknowledge else c.lane l := by
  have hlane : (side = l.source.peer ∧ l.channel.marked ch.mask = true) ↔ l = ⟨ch, side.peer⟩ := by
    obtain ⟨ch', source⟩ := l
    simp [and_comm, Side.eq_peer_comm]
  rw [received, lane_acknowledge]
  simp only [hlane]
  rfl

lemma overwrites_sent (msg : Message) :
    (c.sent side ch msg).overwrites =
      c.overwrites + if (c.lane ⟨ch, side⟩).ready then 0 else 1 := by
  simp only [sent, trigger, store, Channel.popCount_mask_and, Channel.marked_not, lane]
  by_cases hready : ch.marked (c.txsts.get side) = true
  · simp [hready]
  · simp [hready]

lemma Exclusive.sent (h : c.Exclusive) (msg : Message) : (c.sent side ch msg).Exclusive := by
  intro l
  rw [lane_sent]
  split
  · rfl
  · exact h l

lemma Exclusive.received (h : c.Exclusive) : (c.received side ch).Exclusive := by
  intro l
  rw [lane_received]
  split
  · simp [LaneState.after, h l]
  · exact h l

lemma places_sent (h : c.Exclusive) (msg : Message) :
    (c.sent side ch msg).places = c.places.fill ⟨ch, side⟩ msg := by
  apply Places.ext
  · funext l
    simp only [places, lane_sent, Places.fill, Function.update_apply]
    split
    · rfl
    · rfl
  · simp only [places, overwrites_sent, Places.fill, LaneState.isSome_inFlight, h ⟨ch, side⟩]
    cases (c.lane ⟨ch, side⟩).ready <;> rfl
  · rfl

lemma places_received :
    (c.received side ch).places = c.places.take ⟨ch, side.peer⟩ := by
  apply Places.ext
  · funext l
    simp only [places, lane_received, Places.take, Function.update_apply]
    split
    · rfl
    · rfl
  · rfl
  · simp only [places, Places.take, Side.peer_peer]
    rfl

/-!
### Operations as steps
-/

/-- Does an operation, from its first access to its last. -/
def operate : Handler Operation Controller Fault
  | .isTxReady side ch, c => (isTxReady ch).run (handler side) c
  | .isRxAvailable side ch, c => (isRxAvailable ch).run (handler side) c
  | .send side ch msg, c => (send ch msg).run (handler side) c
  | .trySend side ch msg, c => (trySend ch msg).run (handler side) c
  | .recv side ch, c => (recv ch).run (handler side) c
  | .raiseSpurious side bits, c => (.ok (), c.raiseSpurious side bits)

/-- What is left of the controller as it was, by the answer of an operation. -/
def Keeps (c c' : Controller) : (op : Operation) → Request.Answer op → Prop
  | .isTxReady _ _, _ | .isRxAvailable _ _, _ | .trySend _ _ _, .error .busy => c' = c
  | .recv side ch, none => c' = c.clear side ch.mask
  | _, _ => True

/-- An operation is answered as the places answer it, and makes of the controller what it makes of the
places. -/
structure Follows (c : Controller) (op : Operation) (r : Request.Answer op) (c' : Controller) :
    Prop where
  run : c.operate op = (.ok r, c')
  step : c.places.step op = (r, c'.places)
  keeps : c.Keeps c' op r
  exclusive : c'.Exclusive

lemma message_of_full (hfull : (c.lane l).full = true) :
    c.places.message l = some (c.lane l).slot :=
  LaneState.inFlight_of_full hfull

lemma message_of_empty (hempty : (c.lane l).full = false) : c.places.message l = none :=
  LaneState.inFlight_of_empty hempty

namespace Exclusive

lemma follows_isTxReady (h : c.Exclusive) :
    c.Follows (.isTxReady side ch) (c.lane ⟨ch, side⟩).ready c := by
  have hempty : (c.places.message ⟨ch, side⟩).isNone = (c.lane ⟨ch, side⟩).ready := by
    rw [← Option.not_isSome, places, LaneState.isSome_inFlight, h, Bool.not_not]
  exact ⟨run_isTxReady, by rw [Places.step, hempty], rfl, h⟩

lemma follows_isRxAvailable (h : c.Exclusive) :
    c.Follows (.isRxAvailable side ch) (c.lane ⟨ch, side.peer⟩).full c := by
  have hfull : (c.places.message ⟨ch, side.peer⟩).isSome = (c.lane ⟨ch, side.peer⟩).full :=
    LaneState.isSome_inFlight _
  exact ⟨run_isRxAvailable, by rw [Places.step, hfull], rfl, h⟩

lemma follows_send (h : c.Exclusive) (msg : Message) :
    c.Follows (.send side ch msg) () (c.sent side ch msg) :=
  ⟨run_send msg, by rw [Places.step, places_sent h], trivial, h.sent msg⟩

lemma follows_trySend (h : c.Exclusive) (msg : Message) :
    ∃ r c', c.Follows (.trySend side ch msg) r c' := by
  have hexclusive := h ⟨ch, side⟩
  have hrun : (trySend ch msg).run (Controller.handler side) c = _ := run_trySend msg
  cases hready : (c.lane ⟨ch, side⟩).ready with
  | true =>
    rw [hready] at hexclusive
    rw [if_pos hready] at hrun
    refine ⟨.ok (), c.sent side ch msg, hrun, ?_, trivial, h.sent msg⟩
    rw [Places.step, message_of_empty hexclusive, places_sent h]
    rfl
  | false =>
    rw [hready] at hexclusive
    rw [if_neg (by simp [hready])] at hrun
    refine ⟨.error .busy, c, hrun, ?_, rfl, h⟩
    rw [Places.step, message_of_full hexclusive]
    rfl

lemma follows_recv (h : c.Exclusive) : ∃ r c', c.Follows (.recv side ch) r c' := by
  have hrun : (recv ch).run (Controller.handler side) c = _ := run_recv
  cases hfull : (c.lane ⟨ch, side.peer⟩).full with
  | true =>
    rw [if_pos hfull] at hrun
    refine ⟨some _, c.received side ch, hrun, ?_, trivial, h.received⟩
    rw [Places.step, message_of_full hfull, places_received]
  | false =>
    rw [if_neg (by simp [hfull])] at hrun
    refine ⟨none, c.clear side ch.mask, hrun, ?_, rfl, h⟩
    rw [Places.step, message_of_empty hfull]
    rfl

lemma exists_follows (h : c.Exclusive) (op : Operation) : ∃ r c', c.Follows op r c' := by
  cases op with
  | isTxReady side ch => exact ⟨_, _, h.follows_isTxReady⟩
  | isRxAvailable side ch => exact ⟨_, _, h.follows_isRxAvailable⟩
  | send side ch msg => exact ⟨_, _, h.follows_send msg⟩
  | trySend side ch msg => exact h.follows_trySend msg
  | recv side ch => exact h.follows_recv
  | raiseSpurious side bits => exact ⟨(), c.raiseSpurious side bits, rfl, rfl, trivial, h⟩

end Exclusive

end Controller

/-- No program of operations can tell the controller from places for messages, both of them empty at
the start. From then on every operation is answered as the places answer it, does to the controller
what it does to them, and affects no place but that of its own lane. A send that is refused changes
nothing, and to receive nothing changes nothing but the receive flag. -/
theorem refines_places {α : Type} (p : Program Operation α) :
    ∃ a c, p.run Controller.operate .fresh = (.ok a, c) ∧
      p.run Places.handler .empty = (.ok a, c.places) ∧
      ∀ op, ∃ r c', c.operate op = (.ok r, c') ∧ c.places.step op = (r, c'.places) ∧
        c.Keeps c' op r ∧ ∀ l, op.lane? ≠ some l → c'.places.message l = c.places.message l := by
  have hstep : ∀ op (c : Controller) (b : Places), c.Exclusive ∧ c.places = b →
      ∃ r c' b', c.operate op = (.ok r, c') ∧ Places.handler op b = (.ok r, b') ∧
        c'.Exclusive ∧ c'.places = b' := by
    rintro op c _ ⟨hc, rfl⟩
    obtain ⟨r, c', hfollows⟩ := hc.exists_follows op
    refine ⟨r, c', c'.places, hfollows.run, ?_, hfollows.exclusive, rfl⟩
    rw [Places.handler, hfollows.step]
  have hfresh : Controller.fresh.places = .empty := by
    apply Places.ext
    · funext l
      exact Controller.message_of_empty (Controller.lane_fresh l).2
    · rfl
    · rfl
  obtain ⟨a, c, _, hrun, hplaces, hc, rfl⟩ :=
    p.run_of_simulation hstep ⟨Controller.exclusive_fresh, hfresh⟩
  refine ⟨a, c, hrun, hplaces, ?_⟩
  intro op
  obtain ⟨r, c', hfollows⟩ := hc.exists_follows op
  refine ⟨r, c', hfollows.run, hfollows.step, hfollows.keeps, ?_⟩
  intro l hl
  have hmessage := Places.message_step hl c.places
  rwa [hfollows.step] at hmessage

end Intercore.Mailbox
