import Intercore.Program

/-!
# Register accesses

Accesses to the 32-bit registers of a hardware block.
-/

namespace Intercore

/-- One access to a register of type `R`, or a pause between two attempts. -/
inductive Access (R : Type) where
  /-- Reads a register. -/
  | read (r : R)
  /-- Writes a word to a register. -/
  | write (r : R) (value : UInt32)
  /-- Leaves the other contexts a chance to run. -/
  | pause
  deriving DecidableEq, Repr

/-- A read is answered with a word. -/
abbrev Access.Answer {R : Type} : Access R → Type
  | .read _ => UInt32
  | .write _ _ => Unit
  | .pause => Unit

instance {R : Type} : Request (Access R) := ⟨Access.Answer⟩

/-- Registers as a listing prints them: the name of their bank and the indices into it. -/
class Labelled (R : Type) where
  bank : R → String
  indices : R → List Nat

/-- The printed name of a register, such as `tmdat[3][0]`. -/
def Labelled.label {R : Type} [Labelled R] (r : R) : String :=
  (indices r).foldl (fun s i => s ++ "[" ++ toString i ++ "]") (bank r)

end Intercore
