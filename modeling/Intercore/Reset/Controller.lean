import Intercore.Reset.Lines

/-!
# A model of the system controller

The model behaves as the hardware does as to protection. Besides, it counts how often the
protection was opened, how many writes it kept off the reset registers, and how often each reset
bit was let go.
-/

namespace Intercore.Reset

/-- The state of the controller. -/
structure Controller where
  isOpen : Bool
  /-- How much of the unlock sequence has been written, less than the whole. -/
  progress : Nat
  /-- Whether the protection has stopped opening. -/
  stuck : Bool
  iprst : Vector UInt32 4
  /-- How often the protection was opened. -/
  unlocks : Nat
  /-- How many writes to reset registers were ignored. -/
  ignored : Nat
  /-- Every bit that was let go, newest first. -/
  released : List ResetBit
  deriving DecidableEq, Repr

namespace Controller

/-- A controller as it comes out of power-on, with no line pulled. -/
def fresh : Controller := ⟨false, 0, false, #v[0, 0, 0, 0], 0, 0, []⟩

/-- How often a bit was let go. -/
def releases (c : Controller) (b : ResetBit) : Nat := c.released.count b

/-- How much of the sequence has been written after one more word. A word that does not go on
with the sequence may still be its start. -/
def follow (progress : Nat) (word : UInt32) : Nat :=
  if unlockSequence[progress]? = some word then progress + 1
  else if unlockSequence[0]? = some word then 1
  else 0

/-- What the protection register reads as. -/
def readReglctl (c : Controller) : UInt32 := if c.isOpen then 1 else 0

/-- A write to the protection register. While the protection is open any write closes it. -/
def writeReglctl (c : Controller) (word : UInt32) : Controller :=
  if c.isOpen then { c with isOpen := false, progress := 0 }
  else
    let progress := follow c.progress word
    if progress < unlockSequence.length then { c with progress }
    else if c.stuck then { c with progress := 0 }
    else { c with progress := 0, isOpen := true, unlocks := c.unlocks + 1 }

/-- The bits that go from set to clear. -/
def fallingBits (register : UInt8) (old new : UInt32) : List ResetBit :=
  (List.range 32).filterMap fun i =>
    let bit := UInt32.ofNat i
    if (old &&& ~~~new) &&& (1 <<< bit) ≠ 0 then some ⟨register, bit.toUInt8⟩ else none

/-- A write to a reset register, which has an effect only while the protection is open. -/
def writeIprst (c : Controller) (i : UInt8) (value : UInt32) : Except Fault Unit × Controller :=
  if !c.isOpen then (.ok (), { c with ignored := c.ignored + 1 })
  else if h : i.toNat < 4 then
    (.ok (), { c with
      iprst := c.iprst.set i.toNat value
      released := fallingBits i c.iprst[i.toNat] value ++ c.released })
  else (.error (.outOfBounds 4 i.toNat), c)

/-- Answers accesses. -/
def handler : Handler (Access Register) Controller Fault
  | .read .reglctl, c => (.ok c.readReglctl, c)
  | .read (.iprst i), c =>
    if h : i.toNat < 4 then (.ok c.iprst[i.toNat], c) else (.error (.outOfBounds 4 i.toNat), c)
  | .write .reglctl v, c => (.ok (), c.writeReglctl v)
  | .write (.iprst i) v, c => c.writeIprst i v
  | .pause, c => (.ok (), c)

/-- Pulls a bit without going through the protection, as power-on does. -/
def assertAtPowerOn (c : Controller) (b : ResetBit) : Except Fault Unit × Controller :=
  if h : b.register.toNat < 4 then
    let value := c.iprst[b.register.toNat] ||| 1 <<< b.bit.toUInt32
    (.ok (), { c with iprst := c.iprst.set b.register.toNat value })
  else (.error (.outOfBounds 4 b.register.toNat), c)

end Controller

end Intercore.Reset
