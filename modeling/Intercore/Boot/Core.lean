import Intercore.Cache
import Intercore.Reset.Lines

/-!
# Bringing up the secondary core

The secondary core comes out of power-on held in reset. An image is copied to its destination and
pushed out of the cache, the boot flag is cleared and the reset line let go, and then the flag is
polled until the core announces itself. It can be put back into reset at any time.
-/

namespace Intercore.Boot

/-- What the cache is maintained for. -/
inductive Object
  /-- The word in which the secondary core announces itself. -/
  | flag
  /-- The memory that images are copied to. -/
  | destination
  deriving DecidableEq, Repr

/-- The maintenance of the cache for an object. -/
structure Maintenance extends Cache.Op where
  object : Object
  deriving DecidableEq, Repr

/-- How many bytes are maintained. -/
def Maintenance.length (op : Maintenance) : Nat := (op.range.stop - op.range.start).toNat

/-- The size of the boot flag, a 32-bit word. -/
def flagSize : Nat := 4

/-- The boot flag, at an address at which it does not wrap. -/
structure BootFlag where
  addr : UInt64
  fits : addr.toNat + flagSize < UInt64.size
  deriving DecidableEq, Repr

namespace BootFlag

/-- The boot flag of the board. -/
def board : BootFlag := ⟨Board.evaluation.secondary.bootFlag.toUInt64, by decide⟩

/-- What is stored in the flag is pushed out of the cache. -/
def clean (flag : BootFlag) : Maintenance := ⟨Cache.cleanObj flag.addr flagSize, .flag⟩

/-- What the cache has of the flag is dropped. -/
def invalidate (flag : BootFlag) : Maintenance := ⟨Cache.invalidateObj flag.addr flagSize, .flag⟩

end BootFlag

/-- Memory that images are copied to: `room` bytes at `addr`. -/
structure Buffer where
  addr : UInt64
  room : Nat
  deriving DecidableEq, Repr

/-- An image is pushed out of the cache, and dropped so that it can be read back. -/
def writeBack (addr : UInt64) (image : ByteArray) : Maintenance :=
  ⟨⟨.cleanInvalidate, Cache.byteRange addr image.size⟩, .destination⟩

/-- What the bring-up asks of its surroundings. -/
inductive Request
  /-- Accesses the system controller. -/
  | reset (a : Access Reset.Register)
  /-- Maintains the cache, which may change the bytes concerned. -/
  | maintain (op : Maintenance)
  /-- Stores a word in the boot flag. -/
  | storeFlag (flag : BootFlag) (value : UInt32)
  /-- Loads the boot flag. -/
  | loadFlag (flag : BootFlag)
  /-- Copies an image to the start of the destination. -/
  | copy (addr : UInt64) (image : ByteArray)
  /-- Loads the byte at an offset of the destination. -/
  | load (addr : UInt64) (offset : Nat)
  /-- Spins for a while. -/
  | delay (spins : Nat)
  /-- Wakes the other core from waiting for an event. -/
  | wake

/-- Loads are answered with what is in memory. -/
abbrev Request.Answer : Request → Type
  | .reset a => a.Answer
  | .loadFlag _ => UInt32
  | .load _ _ => UInt8
  | _ => Unit

instance : Intercore.Request Request := ⟨Request.Answer⟩

/-- Programs that bring up the secondary core. -/
abbrev Prog := Program Request

/-- Runs a program on the system controller. -/
def onReset {α : Type} (p : Reset.Prog α) : Prog α :=
  p.interpret fun a => .request (Request.reset a)

def maintain (op : Maintenance) : Prog Unit := .request (Request.maintain op)

def loadFlag (flag : BootFlag) : Prog UInt32 := .request (Request.loadFlag flag)

/-- Loads the byte at an offset of the destination. -/
def load (addr : UInt64) (offset : Nat) : Prog UInt8 := .request (Request.load addr offset)

def delay (spins : Nat) : Prog Unit := .request (Request.delay spins)

def wake : Prog Unit := .request Request.wake

/-- What the secondary core announces itself with. -/
def magic : UInt32 := Board.evaluation.secondary.bootMagic

/-- Sets the flag and pushes it out of the cache. -/
def setFlag (flag : BootFlag) (value : UInt32) : Prog Unit := do
  .request (Request.storeFlag flag value)
  maintain flag.clean

def clearFlag (flag : BootFlag) : Prog Unit := setFlag flag 0

/-- Looks at the flag in memory: whether the secondary core has announced itself. -/
def isFlagSet (flag : BootFlag) : Prog Bool := do
  maintain flag.invalidate
  return (← loadFlag flag) = magic

/-- What the secondary core does once it is up. -/
def announce (flag : BootFlag) : Prog Unit := do
  setFlag flag magic
  wake

/-- How far the bring-up has come. -/
inductive CoreState
  | heldInReset
  | imageLoaded
  | released
  | running
  deriving DecidableEq, Repr

/-- Why a step of the bring-up failed. -/
inductive BootError
  /-- The step is not allowed in this state. -/
  | wrongState (state : CoreState)
  /-- The image is longer than the destination. -/
  | imageTooLarge
  /-- The byte at `offset` differs from the image after the cache was maintained. -/
  | verifyFailed (offset : Nat)
  /-- The secondary core did not announce itself in time. -/
  | timeout
  | reset (e : Reset.ResetError)
  deriving DecidableEq, Repr

/-- The secondary core as the bring-up knows it. -/
structure SecondaryCore where
  state : CoreState
  flag : BootFlag
  /-- Whether images are read back after they were copied. -/
  verify : Bool
  /-- How long to spin between letting the core go and waking it. -/
  releaseSpin : Nat
  deriving DecidableEq, Repr

def SecondaryCore.fresh : SecondaryCore :=
  ⟨.heldInReset, .board, true, Board.evaluation.secondary.releaseSpin.toNat⟩

/-- A step of the bring-up: its outcome, and the core afterwards. -/
abbrev Step := Prog (Except BootError Unit × SecondaryCore)

/-- The first offset from `offset` on at which memory at `addr` differs from the image. -/
def mismatchFrom (addr : UInt64) (image : ByteArray) (offset : Nat) : Prog (Option Nat) := do
  if h : offset < image.size then
    if (← load addr offset) = image[offset] then mismatchFrom addr image (offset + 1)
    else return some offset
  else return none
termination_by image.size - offset

namespace SecondaryCore

/-- Copies an image to its destination and makes it visible to the secondary core. May be repeated
before the release, to replace the image. -/
def loadImage (c : SecondaryCore) (image : ByteArray) (destination : Buffer) : Step := do
  if c.state ≠ .heldInReset ∧ c.state ≠ .imageLoaded then
    return (.error (.wrongState c.state), c)
  if destination.room < image.size then return (.error .imageTooLarge, c)
  .request (Request.copy destination.addr image)
  maintain (writeBack destination.addr image)
  if c.verify then
    if let some offset := ← mismatchFrom destination.addr image 0 then
      return (.error (.verifyFailed offset), c)
  return (.ok (), { c with state := .imageLoaded })

/-- Lets the core run. The flag is cleared first, so that what an earlier boot left in it is not
mistaken for this one. -/
def release (c : SecondaryCore) : Step := do
  if c.state ≠ .imageLoaded then return (.error (.wrongState c.state), c)
  clearFlag c.flag
  match ← onReset (Reset.leaveReset .rtCore) with
  | .error e => return (.error (.reset e), c)
  | .ok () =>
    delay c.releaseSpin
    wake
    return (.ok (), { c with state := .released })

/-- Polls the flag until it is set, at most `attempts` times: whether it was. -/
def poll (flag : BootFlag) : (attempts : Nat) → Prog Bool
  | 0 => return false
  | attempts + 1 => do
    if ← isFlagSet flag then return true
    delay 1
    poll flag attempts

/-- Waits for the core to announce itself, unless it is known to be running. -/
def waitRunning (c : SecondaryCore) (attempts : Nat) : Step := do
  match c.state with
  | .running => return (.ok (), c)
  | .released =>
    if ← poll c.flag attempts then return (.ok (), { c with state := .running })
    else return (.error .timeout, c)
  | state => return (.error (.wrongState state), c)

/-- How often the flag is polled unless told otherwise. -/
def defaultAttempts : Nat := Board.evaluation.secondary.waitAttempts.toNat

/-- Puts the core back into reset. An image must be loaded again before the next release. -/
def hold (c : SecondaryCore) : Step := do
  match ← onReset (Reset.enterReset .rtCore) with
  | .error e => return (.error (.reset e), c)
  | .ok () => return (.ok (), { c with state := .heldInReset })

end SecondaryCore

end Intercore.Boot
