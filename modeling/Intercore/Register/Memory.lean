import Intercore.Fault
import Intercore.Register

/-!
# Registers over plain memory

Each register has an offset into its block. A read returns what was written last, also where the
hardware would react to a write.
-/

namespace Intercore

/-- Registers that have a place in memory. -/
class Mapped (R : Type) where
  /-- The byte offset of a register; a bank is left with `Fault.outOfBounds`. -/
  offset : R → Except Fault Nat

/-- The words of a block of plain memory. -/
structure Memory where
  words : Array UInt32
  deriving Repr

namespace Memory

def zeroed (bytes : Nat) : Memory := ⟨Array.replicate (bytes / 4) 0⟩

/-- The word at a byte offset. -/
def load (m : Memory) (offset : Nat) : UInt32 := m.words.getD (offset / 4) 0

/-- Stores a word at a byte offset. -/
def store (m : Memory) (offset : Nat) (value : UInt32) : Memory :=
  ⟨m.words.setIfInBounds (offset / 4) value⟩

/-- The words that are not zero, with their byte offsets in ascending order. -/
def nonzero (m : Memory) : List (Nat × UInt32) :=
  (m.words.toList.zipIdx.filter fun p => p.1 ≠ 0).map fun p => (4 * p.2, p.1)

/-- Answers accesses from memory. -/
def handler {R : Type} [Mapped R] : Handler (Access R) Memory Fault
  | .read r, m =>
    match Mapped.offset r with
    | .ok o => (.ok (m.load o), m)
    | .error e => (.error e, m)
  | .write r v, m =>
    match Mapped.offset r with
    | .ok o => (.ok (), m.store o v)
    | .error e => (.error e, m)
  | .pause, m => (.ok (), m)

end Memory

end Intercore
