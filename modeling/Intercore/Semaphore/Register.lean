import Intercore.Board.Evaluation
import Intercore.Register.Memory
import Intercore.Side
import Intercore.Signal

/-!
# Hardware semaphores

The semaphores are spinlocks that the block arbitrates between the two cores. Each channel
records the key of its holder, zero while it is free. A key written to a free channel claims it;
the holder's own key written again releases it, and the other core latches a status bit if it had
enabled the channel's interrupt by then. A write of any other key does nothing.
-/

namespace Intercore.Semaphore

/-- What a caller writes to claim a channel; zero would mean free. -/
structure Key where
  raw : UInt8
  ne_zero : raw ≠ 0
  deriving DecidableEq, Repr

def Key.ofRaw? (raw : UInt8) : Option Key := if h : raw ≠ 0 then some ⟨raw, h⟩ else none

/-- How many channels the board has. -/
abbrev channelCount : Nat := Board.evaluation.semaphores.channels.toNat

/-- A channel that the board has. -/
abbrev Channel := Fin channelCount

namespace Channel

def ofIndex? (i : UInt8) : Option Channel :=
  if h : i.toNat < channelCount then some ⟨i.toNat, h⟩ else none

def index (c : Channel) : UInt8 := .ofNat c.val

/-- The bit of a channel in the interrupt registers. -/
def mask (c : Channel) : UInt32 := 1 <<< UInt32.ofNat c.val

/-- Every channel, in ascending order. -/
def all : List Channel := List.finRange channelCount

end Channel

/-- The registers of the block as one core sees them. -/
inductive Register
  /-- The claim register of a channel, with the key in its low eight bits. -/
  | sem (ch : UInt8)
  /-- The interrupts that are enabled. -/
  | inten
  /-- The interrupts that are latched; bits written as one are cleared. -/
  | intsts
  deriving DecidableEq, Repr

instance : Labelled Register where
  bank
    | .sem _ => "sem"
    | .inten => "inten"
    | .intsts => "intsts"
  indices
    | .sem ch => [ch.toNat]
    | _ => []

/-- The registers as the application cluster sees them. -/
instance : Mapped Register where
  offset
    | .sem ch => if ch < 32 then .ok (0x40 + 4 * ch.toNat) else .error (.outOfBounds 32 ch.toNat)
    | .inten => .ok 0x10
    | .intsts => .ok 0x14

/-- What the driver asks for: an access to the block, or bits posted to its core's signal. -/
inductive Request
  | access (a : Access Register)
  | post (mask : UInt32)
  deriving DecidableEq, Repr

/-- A post is answered with nothing. -/
abbrev Request.Answer : Request → Type
  | .access a => a.Answer
  | .post _ => Unit

instance : Intercore.Request Request := ⟨Request.Answer⟩

/-- Programs that access the semaphore block. -/
abbrev Prog := Program Request

def read (r : Register) : Prog UInt32 := .request (Request.access (.read r))

def write (r : Register) (value : UInt32) : Prog Unit := .request (Request.access (.write r value))

/-- Lets the other contexts run. -/
def pause : Prog Unit := .request (Request.access .pause)

/-- Posts bits to the signal. -/
def post (mask : UInt32) : Prog Unit := .request (Request.post mask)

/-- Answers from something that knows accesses only, and from a signal. -/
def withSignal {σ ε : Type} (h : Handler (Access Register) σ ε) :
    Handler Request (σ × Signal) ε
  | .access a, (s, signal) =>
    match h a s with
    | (r, s') => (r, s', signal)
  | .post mask, (s, signal) => (.ok (), s, signal.post mask)

end Intercore.Semaphore
