import Intercore.Register

/-!
# Scripted registers

Registers may answer from a script. Every bank of registers has a line of replies. Each read
takes the next one, whatever the index into the bank, and the last reply is repeated for ever;
writes change nothing. Such registers can behave as inconsistently as one likes, which hardware
may too.
-/

namespace Intercore

/-- For each bank, by name, the replies that are still to come. -/
structure Script where
  lines : List (String × List UInt32)
  deriving Repr

namespace Script

/-- The next reply of a bank; a bank without replies answers zero. -/
def peek (s : Script) (bank : String) : UInt32 :=
  match s.lines.lookup bank with
  | some (v :: _) => v
  | _ => 0

/-- Moves a line of replies on, keeping its last one. -/
def advance : List UInt32 → List UInt32
  | _ :: v :: rest => v :: rest
  | line => line

/-- Moves one bank on to its next reply. -/
def skip (s : Script) (bank : String) : Script :=
  ⟨s.lines.map fun (name, line) => if name = bank then (name, advance line) else (name, line)⟩

/-- Answers accesses from a script, with no effect but on the script. -/
def handler {R ε : Type} [Labelled R] : Handler (Access R) Script ε
  | .read r, s => (.ok (s.peek (Labelled.bank r)), s.skip (Labelled.bank r))
  | .write _ _, s => (.ok (), s)
  | .pause, s => (.ok (), s)

end Script

/-- An access as a listing prints it, such as `r inten 5`; a pause touches no register. -/
def Event.render? {R : Type} [Labelled R] : Event (Access R) → Option String
  | ⟨.read r, (v : UInt32)⟩ => some ("r " ++ Labelled.label r ++ " " ++ toString v)
  | ⟨.write r v, _⟩ => some ("w " ++ Labelled.label r ++ " " ++ toString v)
  | ⟨.pause, _⟩ => none

end Intercore
