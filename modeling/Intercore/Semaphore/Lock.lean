import Intercore.Semaphore.Register

/-!
# Locks

Claiming and releasing semaphore channels.

Claiming is to write the key and to read it back, and releasing is the same write. So a key is
only ever written to a channel that was just read as free, or, to release it, as held by that
key.
-/

namespace Intercore.Semaphore

/-- The key in the claim register of a channel, zero if it is free. -/
def readKey (ch : Channel) : Prog UInt8 := return (← read (.sem ch.index)).toUInt8

/-- Writes a key to the claim register of a channel. -/
def writeKey (ch : Channel) (key : Key) : Prog Unit := write (.sem ch.index) key.raw.toUInt32

def holder (ch : Channel) : Prog (Option Key) := return Key.ofRaw? (← readKey ch)

/-- Makes one attempt to claim a channel: whether the key holds it now. It may have held it
before. -/
def tryLock (ch : Channel) (key : Key) : Prog Bool := do
  let current ← readKey ch
  if current = key.raw then return true
  if current ≠ 0 then return false
  writeKey ch key
  return (← readKey ch) = key.raw

/-- Makes attempts until one succeeds, at most `attempts` of them, with a pause after each that
fails: whether the key holds the channel now. -/
def lockWithin (ch : Channel) (key : Key) : (attempts : Nat) → Prog Bool
  | 0 => return false
  | attempts + 1 => do
    if ← tryLock ch key then return true
    pause
    lockWithin ch key attempts

/-- A channel that is held, to be released by `unlock`. -/
structure Guard where
  channel : Channel
  key : Key
  deriving DecidableEq, Repr

/-- Why a channel was not claimed or released. -/
inductive LockError
  /-- All attempts failed; `holder` had the channel at the last look. -/
  | timeout (holder : Option Key)
  /-- The key does not hold the channel, so nothing was written. -/
  | notHolder (holder : Option Key)
  deriving DecidableEq, Repr

/-- Claims a channel within a number of attempts. -/
def lockBounded (ch : Channel) (key : Key) (attempts : Nat) : Prog (Except LockError Guard) := do
  if ← lockWithin ch key attempts then return .ok ⟨ch, key⟩
  return .error (.timeout (← holder ch))

/-- How many attempts a bounded lock makes unless told otherwise. -/
def defaultAttempts : Nat := Board.evaluation.semaphores.lockAttempts.toNat

/-- Releases a channel that the key holds. -/
def unlock (ch : Channel) (key : Key) : Prog (Except LockError Unit) := do
  let current ← readKey ch
  if current ≠ key.raw then return .error (.notHolder (Key.ofRaw? current))
  writeKey ch key
  return .ok ()

def Guard.release (g : Guard) : Prog (Except LockError Unit) := unlock g.channel g.key

/-- Enables the interrupt for releases of a channel by the other core. -/
def enableInt (ch : Channel) : Prog Unit := do
  let v ← read .inten
  write .inten (v ||| ch.mask)

def disableInt (ch : Channel) : Prog Unit := do
  let v ← read .inten
  write .inten (v &&& ~~~ch.mask)

/-- The status bits that are latched. -/
def pending : Prog UInt32 := read .intsts

/-- What the interrupt handler does: it clears the enabled status bits that are latched, posts
them to the signal, and answers with them. -/
def handleInterrupt : Prog UInt32 := do
  let status ← read .intsts
  let enabled ← read .inten
  let bits := status &&& enabled
  if bits ≠ 0 then
    write .intsts bits
    post bits
  return bits

end Intercore.Semaphore
