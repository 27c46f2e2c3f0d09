import Intercore.Fault

/-!
# Cells with a single borrower

Cells that lend out their contents to one borrower at a time.

The flag says whether a borrow is live. Asking for a borrow always sets it; whoever got the
borrow clears it at the end.
-/

namespace Intercore

/-- A value and whether it is lent out. -/
structure Cell (α : Type) where
  contents : α
  borrowed : Bool := false
  deriving DecidableEq, Repr

namespace Cell

variable {α β : Type}

/-- Asks for the contents: whether they were free, and the cell with its flag set. -/
def tryBorrow (c : Cell α) : Bool × Cell α := (!c.borrowed, { c with borrowed := true })

/-- Demands the contents: a fault if another borrow is live. -/
def borrow (c : Cell α) : Except Fault Unit × Cell α :=
  match c.tryBorrow with
  | (true, c') => (.ok (), c')
  | (false, c') => (.error .alreadyBorrowed, c')

/-- Ends the live borrow. -/
def release (c : Cell α) : Cell α := { c with borrowed := false }

/-- Acts on the contents within a borrow of its own, which ends in any case. -/
def use (c : Cell α) (f : α → Except Fault β × α) : Except Fault β × Cell α :=
  match c.borrow with
  | (.error e, c') => (.error e, c')
  | (.ok (), c') =>
    let (r, a) := f c'.contents
    (r, { c' with contents := a }.release)

end Cell

end Intercore
