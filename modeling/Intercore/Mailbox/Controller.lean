import Intercore.Mailbox.Register

/-!
# A model of the mailbox controller

The controller as both cores see it. The slot that one core sends from is the slot that the other
one receives from, so a sender that does not wait really replaces an unread message. Flags are
latched whether or not the interrupt is enabled.
-/

namespace Intercore.Mailbox

/-- The state of the controller. Slots belong to the sender, ready bits to the sender, available
bits and flags to the core that sees them. -/
structure Controller where
  slots : Both (Vector Message 16)
  txsts : Both UInt32
  rxsts : Both UInt32
  inten : Both UInt32
  intsts : Both UInt32
  /-- How many acknowledgements each core has written. -/
  acks : Both Nat
  /-- How many messages were sent on a channel that was not ready. -/
  overwrites : Nat
  deriving DecidableEq, Repr

/-- How many bits are set in a word. -/
def popCount (w : UInt32) : Nat :=
  (List.range 32).countP fun i => w &&& (1 <<< UInt32.ofNat i) ≠ 0

namespace Controller

/-- The controller after a reset: all channels empty and ready. -/
def fresh : Controller where
  slots := .same (.replicate 16 (.replicate 4 0))
  txsts := .same 0xffff
  rxsts := .same 0
  inten := .same 0
  intsts := .same 0
  acks := .same 0
  overwrites := 0

/-- One core sends channels. -/
def trigger (c : Controller) (side : Side) (mask : UInt32) : Controller :=
  { c with
    overwrites := c.overwrites + popCount (mask &&& ~~~c.txsts.get side)
    txsts := c.txsts.set side (c.txsts.get side &&& ~~~mask)
    rxsts := c.rxsts.set side.peer (c.rxsts.get side.peer ||| mask)
    intsts := c.intsts.set side.peer (c.intsts.get side.peer ||| mask) }

/-- One core acknowledges channels; those without a message are left out. -/
def acknowledge (c : Controller) (side : Side) (mask : UInt32) : Controller :=
  let mask := mask &&& c.rxsts.get side
  { c with
    acks := c.acks.set side (c.acks.get side + 1)
    rxsts := c.rxsts.set side (c.rxsts.get side &&& ~~~mask)
    txsts := c.txsts.set side.peer (c.txsts.get side.peer ||| mask)
    intsts := c.intsts.set side.peer (c.intsts.get side.peer ||| mask <<< ackShift) }

/-- Latches flags with nothing behind them. -/
def raiseSpurious (c : Controller) (side : Side) (bits : UInt32) : Controller :=
  { c with intsts := c.intsts.set side (c.intsts.get side ||| bits) }

def writeSlot (c : Controller) (side : Side) (ch : Fin 16) (word : Fin 4) (value : UInt32) :
    Controller :=
  let slots := c.slots.get side
  { c with slots := c.slots.set side (slots.set ch (slots[ch].set word value)) }

/-- A slot access checked against the size of the hardware. -/
def slotIndex (ch : UInt8) (word : Nat) : Except Fault (Fin 16 × Fin 4) :=
  if hc : ch.toNat < 16 then
    if hw : word < 4 then .ok (⟨ch.toNat, hc⟩, ⟨word, hw⟩) else .error (.outOfBounds 4 word)
  else .error (.outOfBounds 16 ch.toNat)

/-- Answers the accesses of one core. The registers that only trigger something read as zero,
and those that only show something ignore writes. -/
def handler (side : Side) : Handler (Access Register) Controller Fault
  | .read .txsts, c => (.ok (c.txsts.get side), c)
  | .read .rxsts, c => (.ok (c.rxsts.get side), c)
  | .read .inten, c => (.ok (c.inten.get side), c)
  | .read .intsts, c => (.ok (c.intsts.get side), c)
  | .read (.rmdat ch word), c =>
    match slotIndex ch word with
    | .ok (i, j) => (.ok (c.slots.get side.peer)[i][j], c)
    | .error e => (.error e, c)
  | .read (.tmdat ch word), c =>
    match slotIndex ch word with
    | .ok (i, j) => (.ok (c.slots.get side)[i][j], c)
    | .error e => (.error e, c)
  | .read .txctl, c => (.ok (0 : UInt32), c)
  | .read .rxctl, c => (.ok (0 : UInt32), c)
  | .write .txctl v, c => (.ok (), c.trigger side v)
  | .write .rxctl v, c => (.ok (), c.acknowledge side v)
  | .write .inten v, c => (.ok (), { c with inten := c.inten.set side v })
  | .write .intsts v, c =>
    (.ok (), { c with intsts := c.intsts.set side (c.intsts.get side &&& ~~~v) })
  | .write (.tmdat ch word) v, c =>
    match slotIndex ch word with
    | .ok (i, j) => (.ok (), c.writeSlot side i j v)
    | .error e => (.error e, c)
  | .write _ _, c => (.ok (), c)
  | .pause, c => (.ok (), c)

end Controller

end Intercore.Mailbox
