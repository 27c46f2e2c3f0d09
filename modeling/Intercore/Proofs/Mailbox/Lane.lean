import Intercore.Mailbox.Controller
import Intercore.Proofs.Bit

/-!
# Lanes

A lane is one direction of a channel. The controller keeps a slot, a ready bit and an available
bit for it, and only three kinds of accesses change them. Everything else that happens to the
controller is no matter to the lane.
-/

namespace Intercore.Mailbox

/-!
### Messages as words
-/

lemma set_word (m : Message) (word : Fin 4) (value : UInt32) :
    m.set word value word.isLt = m.setIfInBounds word value := by
  ext j hj
  simp [Vector.getElem_set, Vector.getElem_setIfInBounds]

lemma set_words (m : Message) (w₀ w₁ w₂ w₃ : UInt32) :
    (((m.setIfInBounds 0 w₀).setIfInBounds 1 w₁).setIfInBounds 2 w₂).setIfInBounds 3 w₃ =
      #v[w₀, w₁, w₂, w₃] := by
  ext j hj
  simp only [Vector.getElem_setIfInBounds]
  have : j = 0 ∨ j = 1 ∨ j = 2 ∨ j = 3 := by omega
  rcases this with rfl | rfl | rfl | rfl <;> rfl

lemma eq_words {m : Message} {w₀ w₁ w₂ w₃ : UInt32} (h₀ : m[0]? = some w₀) (h₁ : m[1]? = some w₁)
    (h₂ : m[2]? = some w₂) (h₃ : m[3]? = some w₃) : #v[w₀, w₁, w₂, w₃] = m := by
  simp only [Nat.reduceLT, Vector.getElem?_eq_getElem, Option.some.injEq] at h₀ h₁ h₂ h₃
  subst h₀ h₁ h₂ h₃
  ext j hj
  have : j = 0 ∨ j = 1 ∨ j = 2 ∨ j = 3 := by omega
  rcases this with rfl | rfl | rfl | rfl <;> rfl

/-!
### Channels in status words
-/

lemma channelCount_pos : 0 < channelCount := by decide

namespace Channel

lemma val_lt (ch : Channel) : ch.val < 16 := Nat.lt_of_lt_of_le ch.isLt (by decide)

@[simp] lemma toNat_index (ch : Channel) : ch.index.toNat = ch.val := by
  have := ch.val_lt
  simp [index]
  omega

lemma index_injective : Function.Injective index := by
  intro a b h
  have := congrArg UInt8.toNat h
  exact Fin.ext (by simpa using this)

def slot (ch : Channel) : Fin 16 := ⟨ch.val, ch.val_lt⟩

/-- Whether the bit of a channel is set in a word. -/
def marked (ch : Channel) (w : UInt32) : Bool := w &&& ch.mask ≠ 0

/-- The bit of a channel. -/
def bit (ch : Channel) : Fin 32 := ⟨ch.val, Nat.lt_trans ch.val_lt (by decide)⟩

lemma marked_eq (ch : Channel) (w : UInt32) : ch.marked w = hasBit ch.bit w := rfl

@[simp] lemma marked_and (ch : Channel) (w w' : UInt32) :
    ch.marked (w &&& w') = (ch.marked w && ch.marked w') := by
  simp [marked_eq]

@[simp] lemma marked_or (ch : Channel) (w w' : UInt32) :
    ch.marked (w ||| w') = (ch.marked w || ch.marked w') := by
  simp [marked_eq]

@[simp] lemma marked_not (ch : Channel) (w : UInt32) : ch.marked (~~~w) = !ch.marked w := by
  simp [marked_eq]

@[simp] lemma marked_mask (ch ch' : Channel) : ch.marked ch'.mask = decide (ch = ch') := by
  revert ch ch'
  decide

end Channel

/-!
### What accesses do to a lane
-/

/-- One direction of a channel. -/
structure Lane where
  channel : Channel
  /-- The core that sends. -/
  source : Side
  deriving DecidableEq, Repr

/-- What the controller holds of a lane. -/
structure LaneState where
  /-- Whether the source may send. -/
  ready : Bool
  /-- Whether a message waits for the other core. -/
  full : Bool
  slot : Message
  deriving DecidableEq, Repr

/-- What an access may do to a lane. -/
inductive Touch
  | put (word : Fin 4) (value : UInt32)
  | send
  | acknowledge
  deriving DecidableEq, Repr

def LaneState.after (s : LaneState) : Touch → LaneState
  | .put word value => { s with slot := s.slot.setIfInBounds word value }
  | .send => { s with ready := false, full := true }
  | .acknowledge => { s with ready := s.ready || s.full, full := false }

/-- The message in flight. -/
def LaneState.inFlight (s : LaneState) : Option Message := if s.full then some s.slot else none

namespace LaneState

variable {s : LaneState}

lemma inFlight_of_full (h : s.full = true) : s.inFlight = some s.slot := if_pos h

lemma inFlight_of_empty (h : s.full = false) : s.inFlight = none := by simp [inFlight, h]

lemma inFlight_send (s : LaneState) : (s.after .send).inFlight = some s.slot := rfl

lemma inFlight_acknowledge (s : LaneState) : (s.after .acknowledge).inFlight = none := rfl

end LaneState

/-- What an access by one core does to a lane, if anything. -/
def Lane.touch (l : Lane) (side : Side) : Access Register → Option Touch
  | .write (.tmdat ch word) value =>
    if h : word < 4 then
      if side = l.source ∧ ch = l.channel.index then some (.put ⟨word, h⟩ value) else none
    else none
  | .write .txctl mask => if side = l.source ∧ l.channel.marked mask then some .send else none
  | .write .rxctl mask =>
    if side = l.source.peer ∧ l.channel.marked mask then some .acknowledge else none
  | _ => none

namespace Controller

def lane (c : Controller) (l : Lane) : LaneState where
  ready := l.channel.marked (c.txsts.get l.source)
  full := l.channel.marked (c.rxsts.get l.source.peer)
  slot := (c.slots.get l.source)[l.channel.slot]

variable {c : Controller} {l : Lane} {side : Side}

lemma lane_fresh (l : Lane) : (fresh.lane l).ready = true ∧ (fresh.lane l).full = false := by
  obtain ⟨ch, source⟩ := l
  revert ch
  cases source <;> decide

lemma lane_trigger (mask : UInt32) :
    (c.trigger side mask).lane l =
      if side = l.source ∧ l.channel.marked mask then (c.lane l).after .send else c.lane l := by
  by_cases hside : side = l.source
  · subst hside
    by_cases hmask : l.channel.marked mask
    · simp [trigger, lane, LaneState.after, hmask]
    · simp [trigger, lane, hmask]
  · have hpeer : l.source.peer ≠ side.peer := fun h => hside (Side.peer_inj.mp h).symm
    simp [trigger, lane, Both.get_set, hside, Ne.symm hside, hpeer]

lemma lane_acknowledge (mask : UInt32) :
    (c.acknowledge side mask).lane l =
      if side = l.source.peer ∧ l.channel.marked mask then (c.lane l).after .acknowledge
      else c.lane l := by
  by_cases hside : side = l.source.peer
  · subst hside
    by_cases hmask : l.channel.marked mask
    · simp [acknowledge, lane, LaneState.after, hmask]
    · simp [acknowledge, lane, hmask]
  · have hpeer : l.source ≠ side.peer := fun h => hside (Side.eq_peer_comm.mp h)
    simp [acknowledge, lane, Both.get_set, hside, Ne.symm hside, hpeer]

lemma lane_writeSlot (ch : Fin 16) (word : Fin 4) (value : UInt32) :
    (c.writeSlot side ch word value).lane l =
      if side = l.source ∧ ch = l.channel.slot then (c.lane l).after (.put word value)
      else c.lane l := by
  by_cases hside : side = l.source
  · subst hside
    by_cases hch : ch = l.channel.slot
    · simp [writeSlot, lane, LaneState.after, hch, set_word]
    · have hval : ch.val ≠ l.channel.slot.val := by
        intro h
        exact hch (Fin.ext h)
      simp [writeSlot, lane, hch, hval]
  · simp [writeSlot, lane, Both.get_set, hside, Ne.symm hside]

end Controller

/-- Whether an access is answered and not refused: the words of slots are those that exist. -/
def isServed : Access Register → Bool
  | .read (.rmdat ch word) | .read (.tmdat ch word) | .write (.tmdat ch word) _ =>
    ch.toNat < 16 && word < 4
  | _ => true

/-- An access that is answered, and that does nothing to the lane. -/
def Lane.Aside (l : Lane) (side : Side) (q : Access Register) : Prop :=
  isServed q = true ∧ l.touch side q = none

instance (l : Lane) (side : Side) (q : Access Register) : Decidable (l.Aside side q) :=
  inferInstanceAs (Decidable (_ ∧ _))

namespace Controller

variable {c : Controller} {l : Lane} {side : Side}

lemma slotIndex_of_lt {ch : UInt8} {word : Nat} (hch : ch.toNat < 16) (hword : word < 4) :
    slotIndex ch word = .ok (⟨ch.toNat, hch⟩, ⟨word, hword⟩) := by
  simp [slotIndex, hch, hword]

/-- An access changes a lane in the way it touches it, and not at all if it does not. -/
lemma handler_lane (side : Side) (c : Controller) (l : Lane) {q : Access Register}
    (hq : isServed q) :
    ∃ r, (handler side q c).1 = .ok r ∧
      (handler side q c).2.lane l = ((l.touch side q).elim (c.lane l) (c.lane l).after) := by
  match q, hq with
  | .read .txsts, _ | .read .rxsts, _ | .read .inten, _ | .read .intsts, _ => exact ⟨_, rfl, rfl⟩
  | .read .txctl, _ | .read .rxctl, _ | .pause, _ => exact ⟨_, rfl, rfl⟩
  | .read (.rmdat ch word), hq | .read (.tmdat ch word), hq =>
    simp only [isServed, Bool.and_eq_true, decide_eq_true_eq] at hq
    simp [handler, slotIndex_of_lt hq.1 hq.2, Lane.touch]
  | .write .txctl mask, _ =>
    refine ⟨_, rfl, ?_⟩
    simp only [handler, lane_trigger, Lane.touch]
    split <;> rfl
  | .write .rxctl mask, _ =>
    refine ⟨_, rfl, ?_⟩
    simp only [handler, lane_acknowledge, Lane.touch]
    split <;> rfl
  | .write (.tmdat ch word) value, hq =>
    simp only [isServed, Bool.and_eq_true, decide_eq_true_eq] at hq
    have hslot : (⟨ch.toNat, hq.1⟩ : Fin 16) = l.channel.slot ↔ ch = l.channel.index := by
      rw [Fin.ext_iff, ← UInt8.toNat_inj, Channel.toNat_index, Channel.slot]
    simp only [handler, slotIndex_of_lt hq.1 hq.2, lane_writeSlot, Lane.touch, hq.2, hslot]
    refine ⟨_, rfl, ?_⟩
    simp only [dif_pos]
    split <;> rfl
  | .write .txsts _, _ | .write .rxsts _, _ | .write .inten _, _ | .write .intsts _, _
  | .write (.rmdat _ _) _, _ => exact ⟨_, rfl, rfl⟩

/-- A lane stays either ready or full, whatever is done to it. -/
lemma exclusive_handler {q : Access Register} (hq : isServed q = true)
    (h : (c.lane l).full = !(c.lane l).ready) :
    ((handler side q c).2.lane l).full = !((handler side q c).2.lane l).ready := by
  obtain ⟨r, -, hlane⟩ := handler_lane side c l hq
  rw [hlane]
  cases l.touch side q with
  | none => exact h
  | some touch =>
    cases touch with
    | put word value => exact h
    | send => rfl
    | acknowledge => simp [LaneState.after, h]

/-- What one core receives from on a channel is what the other one sends from. -/
lemma handler_rmdat (c : Controller) (l : Lane) (word : Fin 4) :
    ∃ r : UInt32, (handler l.source.peer (.read (.rmdat l.channel.index word)) c).1 = .ok r ∧
      (c.lane l).slot[word.val]? = some r := by
  have hch : l.channel.index.toNat < 16 := by simpa using l.channel.val_lt
  simp [handler, slotIndex_of_lt hch word.isLt, lane, Channel.slot]

end Controller

/-- What the two ends of a lane see of it in an answer. -/
def Lane.Shows (l : Lane) (side : Side) (s : LaneState) :
    (q : Access Register) → Request.Answer q → Prop
  | .read .txsts, (r : UInt32) => side = l.source → l.channel.marked r = s.ready
  | .read .rxsts, (r : UInt32) => side = l.source.peer → l.channel.marked r = s.full
  | .read (.rmdat ch word), (r : UInt32) =>
    side = l.source.peer → ch = l.channel.index → s.slot[word]? = some r
  | _, _ => True

lemma Controller.shows_lane {l : Lane} {side : Side} {c : Controller} {q : Access Register}
    {r : Request.Answer q} (hserved : isServed q = true)
    (hr : (Controller.handler side q c).1 = .ok r) :
    l.Shows side (c.lane l) q r := by
  match q with
  | .read .txsts =>
    obtain rfl : c.txsts.get side = r := by simpa [Controller.handler] using hr
    rintro rfl
    rfl
  | .read .rxsts =>
    obtain rfl : c.rxsts.get side = r := by simpa [Controller.handler] using hr
    rintro rfl
    rfl
  | .read (.rmdat ch word) =>
    rintro rfl rfl
    have hword : word < 4 := by simpa [isServed, l.channel.val_lt] using hserved
    obtain ⟨r', hget, hslot⟩ := Controller.handler_rmdat c l ⟨word, hword⟩
    rw [hget] at hr
    cases hr
    exact hslot
  | .read .txctl | .read .rxctl | .read .inten | .read .intsts | .read (.tmdat _ _) | .write _ _
  | .pause => trivial

/-- The channels on which an access by one core replaces a message that was not read yet. -/
def overwritten (side : Side) (c : Controller) : Access Register → UInt32
  | .write .txctl mask => mask &&& ~~~c.txsts.get side
  | _ => 0

/-- Overwrites are counted channel by channel. -/
lemma Controller.handler_overwrites (side : Side) (q : Access Register) (c : Controller) :
    (handler side q c).2.overwrites = c.overwrites + popCount (overwritten side c q) := by
  have hzero : popCount 0 = 0 := by decide
  match q with
  | .write .txctl mask => rfl
  | .read (.rmdat ch word) | .read (.tmdat ch word) | .write (.tmdat ch word) _ =>
    simp only [handler, overwritten, hzero]
    split <;> rfl
  | .read .txsts | .read .rxsts | .read .inten | .read .intsts | .read .txctl | .read .rxctl
  | .write .rxctl _ | .write .txsts _ | .write .rxsts _ | .write .inten _ | .write .intsts _
  | .write (.rmdat _ _) _ | .pause =>
    simp [handler, overwritten, hzero, acknowledge]

/-- A lane is overwritten only by sending on it when it is not ready. -/
lemma marked_overwritten {l : Lane} {side : Side} {c : Controller} {q : Access Register}
    (hside : side = l.source) (h : l.touch side q = some .send → (c.lane l).ready = true) :
    l.channel.marked (overwritten side c q) = false := by
  subst hside
  have hzero : l.channel.marked 0 = false := by simp [Channel.marked]
  match q with
  | .write .txctl mask =>
    by_cases hmask : l.channel.marked mask
    · have hready : (c.lane l).ready = true := h (by simp [Lane.touch, hmask])
      simpa [overwritten, Controller.lane] using fun _ => hready
    · simp [overwritten, hmask]
  | .read _ | .pause | .write .rxctl _ | .write .txsts _ | .write .rxsts _ | .write .inten _
  | .write .intsts _ | .write (.rmdat _ _) _ | .write (.tmdat _ _) _ => exact hzero

end Intercore.Mailbox
