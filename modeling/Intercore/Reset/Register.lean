import Intercore.Board.Evaluation
import Intercore.Register.Memory

/-!
# The system controller

The controller has four reset registers behind a write protection. A write to the protection
register opens it only as the last of a fixed sequence of three. While it is closed, writes to
the reset registers are ignored.
-/

namespace Intercore.Reset

/-- The registers of the system controller. -/
inductive Register
  /-- Write protection; bit 0 reads as one while it is open. -/
  | reglctl
  /-- Module resets; a set bit holds a module in reset. -/
  | iprst (i : UInt8)
  deriving DecidableEq, Repr

instance : Labelled Register where
  bank
    | .reglctl => "reglctl"
    | .iprst _ => "iprst"
  indices
    | .reglctl => []
    | .iprst i => [i.toNat]

instance : Mapped Register where
  offset
    | .reglctl => .ok 0x100
    | .iprst i => if i < 4 then .ok (0x20 + 4 * i.toNat) else .error (.outOfBounds 4 i.toNat)

/-- What is written to open the protection. -/
def unlockSequence : List UInt32 := [0x59, 0x16, 0x88]

/-- The reset lines that the drivers pull. -/
inductive Line
  | semaphores
  | mailboxes
  /-- The real-time core, which runs once it is let go. -/
  | rtCore
  deriving DecidableEq, Repr

def Line.resetBit : Line → ResetBit
  | semaphores => Board.evaluation.semaphores.reset
  | mailboxes => Board.evaluation.mailboxes.reset
  | rtCore => Board.evaluation.secondary.reset

def Line.register (l : Line) : Register := .iprst l.resetBit.register

def Line.mask (l : Line) : UInt32 := 1 <<< l.resetBit.bit.toUInt32

/-- Programs that access the system controller. -/
abbrev Prog := Program (Access Register)

def read (r : Register) : Prog UInt32 := .request (Access.read r)

def write (r : Register) (value : UInt32) : Prog Unit := .request (Access.write r value)

end Intercore.Reset
