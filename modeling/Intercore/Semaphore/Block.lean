import Intercore.Semaphore.Register

/-!
# A model of the semaphore block

The block is shared by the two cores. Every access is atomic, but a driver's read, write and
read-back are not, so that the accesses of the cores may fall between each other as they do in
hardware.
-/

namespace Intercore.Semaphore

/-- The state of the block. -/
structure Block where
  /-- The key that holds each channel, zero if it is free. -/
  sem : Vector UInt8 32
  inten : Both UInt32
  intsts : Both UInt32
  /-- How many writes to claim registers were made. -/
  writes : Nat
  deriving DecidableEq, Repr

namespace Block

/-- The block after a reset: every channel free, no interrupt enabled or latched. -/
def fresh : Block := ⟨.replicate 32 0, .same 0, .same 0, 0⟩

/-- Puts a key into a claim register as seen from one core. -/
def claim (b : Block) (side : Side) (i : Fin 32) (key : UInt8) : Block :=
  if key = 0 then b
  else if b.sem[i] = 0 then { b with sem := b.sem.set i key }
  else if b.sem[i] = key then
    let bit := 1 <<< UInt32.ofNat i.val
    let latched := b.intsts.get side.peer
    { b with
      sem := b.sem.set i 0
      intsts :=
        if b.inten.get side.peer &&& bit ≠ 0 then b.intsts.set side.peer (latched ||| bit)
        else b.intsts }
  else b

/-- A write to a claim register. -/
def writeSem (b : Block) (side : Side) (ch key : UInt8) : Except Fault Unit × Block :=
  let b := { b with writes := b.writes + 1 }
  if h : ch.toNat < 32 then (.ok (), b.claim side ⟨ch.toNat, h⟩ key)
  else if key = 0 then (.ok (), b)
  else (.error (.outOfBounds 32 ch.toNat), b)

/-- Answers the accesses of one core. -/
def handler (side : Side) : Handler (Access Register) Block Fault
  | .read (.sem ch), b =>
    if h : ch.toNat < 32 then (.ok b.sem[ch.toNat].toUInt32, b)
    else (.error (.outOfBounds 32 ch.toNat), b)
  | .read .inten, b => (.ok (b.inten.get side), b)
  | .read .intsts, b => (.ok (b.intsts.get side), b)
  | .write (.sem ch) v, b => b.writeSem side ch v.toUInt8
  | .write .inten v, b => (.ok (), { b with inten := b.inten.set side v })
  | .write .intsts v, b =>
    (.ok (), { b with intsts := b.intsts.set side (b.intsts.get side &&& ~~~v) })
  | .pause, b => (.ok (), b)

end Block

/-- The block together with the signal of each core. -/
structure Machine where
  block : Block
  signals : Both Signal
  deriving DecidableEq, Repr

namespace Machine

/-- A block after a reset, with no bit posted. -/
def fresh : Machine := ⟨.fresh, .same {}⟩

/-- Answers the requests of one core. -/
def handler (side : Side) : Handler Request Machine Fault
  | .access a, s =>
    match s.block.handler side a with
    | (r, block) => (r, { s with block })
  | .post mask, s =>
    (.ok (), { s with signals := s.signals.set side ((s.signals.get side).post mask) })

end Machine

end Intercore.Semaphore
