/-!
# Signals

A word of pending notification bits, posted by interrupt handlers and taken by threads.

Each operation is a single atomic step on the word: taking bits clears them in the same step,
so two takers never get the same bit and none is lost in between.
-/

namespace Intercore

/-- The bits that have been posted and not yet taken. -/
structure Signal where
  bits : UInt32 := 0
  deriving DecidableEq, Repr

namespace Signal

/-- Marks the bits of `mask` as pending. -/
def post (s : Signal) (mask : UInt32) : Signal := ⟨s.bits ||| mask⟩

/-- Takes every pending bit. -/
def take (s : Signal) : UInt32 × Signal := (s.bits, ⟨0⟩)

/-- Takes the pending bits in `mask` and leaves the others. -/
def takeMasked (s : Signal) (mask : UInt32) : UInt32 × Signal :=
  (s.bits &&& mask, ⟨s.bits &&& ~~~mask⟩)

/-- How a wait ended: with the bits it took, or still empty-handed. -/
structure Wait where
  /-- The bits that were taken, if any were pending at one of the polls. -/
  taken : Option UInt32
  /-- How often the wait let others run. -/
  relaxed : Nat
  deriving DecidableEq, Repr

/-- Polls until a bit is pending, then takes all. After the `n`-th vain poll, `relax n` is what
the other contexts do meanwhile. At most `limit` polls are made. -/
def wait (relax : Nat → Signal → Signal) (limit : Nat) (s : Signal) : Wait × Signal :=
  go limit 0 s
where
  go : Nat → Nat → Signal → Wait × Signal
    | 0, polls, s => (⟨none, polls⟩, s)
    | limit + 1, polls, s =>
      if s.bits ≠ 0 then (⟨some s.bits, polls⟩, s.take.2)
      else go limit (polls + 1) (relax (polls + 1) s.take.2)

end Signal

end Intercore
