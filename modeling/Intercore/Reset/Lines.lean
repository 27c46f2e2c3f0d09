import Intercore.Reset.Register

/-!
# Reset lines

Pulling and releasing reset lines.

Every write to a reset register is made while the protection is open. Whoever finds it closed
opens it for the time of the write and closes it again; whoever finds it open leaves it open.
-/

namespace Intercore.Reset

/-- Why the protection could not be opened. -/
inductive ResetError
  /-- It still reads as closed after the whole sequence. -/
  | lockStuck
  deriving DecidableEq, Repr

def isOpen : Prog Bool := return (← read .reglctl) &&& 1 ≠ 0

/-- Writes words to the protection register one after the other. -/
def writeAll : List UInt32 → Prog Unit
  | [] => pure ()
  | w :: ws => do
    write .reglctl w
    writeAll ws

/-- Runs a program with the protection open, and leaves it as it was found. If it does not open,
the program is not run. -/
def withOpen {α : Type} (body : Prog α) : Prog (Except ResetError α) := do
  if ← isOpen then
    return .ok (← body)
  else
    writeAll unlockSequence
    if ← isOpen then
      let a ← body
      write .reglctl 0
      return .ok a
    else return .error .lockStuck

/-- Pulls a line: the module is held in reset. -/
def enterReset (l : Line) : Prog (Except ResetError Unit) :=
  withOpen do
    let v ← read l.register
    write l.register (v ||| l.mask)

/-- Lets a line go: the module runs. -/
def leaveReset (l : Line) : Prog (Except ResetError Unit) :=
  withOpen do
    let v ← read l.register
    write l.register (v &&& ~~~l.mask)

/-- Pulls a line and lets it go again, within one opening of the protection. -/
def pulseReset (l : Line) : Prog (Except ResetError Unit) :=
  withOpen do
    let v ← read l.register
    write l.register (v ||| l.mask)
    write l.register (v &&& ~~~l.mask)

def inReset (l : Line) : Prog Bool := return (← read l.register) &&& l.mask ≠ 0

/-- What a program with open protection may consist of: raw accesses and openings within it. -/
inductive Action
  | read (r : Register)
  | write (r : Register) (value : UInt32)
  | nested (body : List Action)
  deriving Inhabited, Repr

/-- What an action answers. -/
inductive Answer
  | word (value : UInt32)
  | done
  | nested (result : Except ResetError (List Answer))

mutual

def Action.program : Action → Prog Answer
  | .read r => return .word (← Reset.read r)
  | .write r v => do
    Reset.write r v
    return .done
  | .nested body => return .nested (← withOpen (programAll body))

/-- The program of several actions in order. -/
def programAll : List Action → Prog (List Answer)
  | [] => return []
  | a :: as => return (← a.program) :: (← programAll as)

end

end Intercore.Reset
