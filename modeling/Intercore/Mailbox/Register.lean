import Intercore.Board.Evaluation
import Intercore.Register.Memory
import Intercore.Side

/-!
# Mailboxes

The mailbox controller holds message slots between the two cores. Each channel has one slot of
four words in each direction. The sender writes the slot and triggers it, which takes its ready
bit away until the receiver has read and acknowledged the message. Status flags are latched on
both occasions.
-/

namespace Intercore.Mailbox

/-- A message of four words. -/
abbrev Message := Vector UInt32 4

/-- How many channels the board has. -/
abbrev channelCount : Nat := Board.evaluation.mailboxes.channels.toNat

/-- A channel that the board has. -/
abbrev Channel := Fin channelCount

/-- Where the send-acknowledged flags start in the interrupt registers. -/
def ackShift : UInt32 := 16

namespace Channel

def ofIndex? (i : UInt8) : Option Channel :=
  if h : i.toNat < channelCount then some ⟨i.toNat, h⟩ else none

def index (c : Channel) : UInt8 := .ofNat c.val

/-- The bit of a channel in the status registers, and its receive flag. -/
def mask (c : Channel) : UInt32 := 1 <<< UInt32.ofNat c.val

/-- The send-acknowledged flag of a channel. -/
def ackMask (c : Channel) : UInt32 := 1 <<< (UInt32.ofNat c.val + ackShift)

/-- Every channel, in ascending order. -/
def all : List Channel := List.finRange channelCount

end Channel

/-- The registers of the controller as one core sees them. -/
inductive Register
  /-- Sends the channels whose bits are written. -/
  | txctl
  /-- The channels that are ready to send. -/
  | txsts
  /-- The channels with a message to receive. -/
  | rxsts
  /-- Acknowledges the channels whose bits are written. -/
  | rxctl
  /-- The interrupts that are enabled. -/
  | inten
  /-- The flags that are latched; bits written as one are cleared. -/
  | intsts
  /-- A word of the slot to send from. -/
  | tmdat (ch : UInt8) (word : Nat)
  /-- A word of the slot to receive from. -/
  | rmdat (ch : UInt8) (word : Nat)
  deriving DecidableEq, Repr

instance : Labelled Register where
  bank
    | .txctl => "txctl"
    | .txsts => "txsts"
    | .rxsts => "rxsts"
    | .rxctl => "rxctl"
    | .inten => "inten"
    | .intsts => "intsts"
    | .tmdat _ _ => "tmdat"
    | .rmdat _ _ => "rmdat"
  indices
    | .tmdat ch word | .rmdat ch word => [ch.toNat, word]
    | _ => []

/-- A word of a slot exists on one of 16 channels and is one of four. -/
def checkSlot (ch : UInt8) (word : Nat) : Except Fault Unit :=
  if 16 ≤ ch.toNat then .error (.outOfBounds 16 ch.toNat)
  else if 4 ≤ word then .error (.outOfBounds 4 word)
  else .ok ()

instance : Mapped Register where
  offset
    | .txctl => .ok 0x00
    | .txsts => .ok 0x04
    | .rxsts => .ok 0x08
    | .rxctl => .ok 0x0c
    | .inten => .ok 0x10
    | .intsts => .ok 0x14
    | .tmdat ch word => (checkSlot ch word).map fun _ => 0x100 + 16 * ch.toNat + 4 * word
    | .rmdat ch word => (checkSlot ch word).map fun _ => 0x200 + 16 * ch.toNat + 4 * word

abbrev Prog := Program (Access Register)

def read (r : Register) : Prog UInt32 := .request (Access.read r)

def write (r : Register) (value : UInt32) : Prog Unit := .request (Access.write r value)

end Intercore.Mailbox
