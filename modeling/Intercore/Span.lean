/-!
# Spans and regions

Half-open ranges of 64-bit addresses, and regions of physical memory.
-/

namespace Intercore

/-- The addresses from `start` up to, not including, `stop`. -/
structure Span where
  start : UInt64
  stop : UInt64
  deriving DecidableEq, Repr

namespace Span

/-- The `length` addresses from a 32-bit base on. -/
def ofBase (base : UInt32) (length : UInt64) : Span :=
  ⟨base.toUInt64, base.toUInt64 + length⟩

/-- A span whose end is not past its start holds no address. -/
def isEmpty (s : Span) : Bool := s.stop ≤ s.start

/-- Whether the ends of `inner` lie within the ends of `outer`. -/
def covers (outer inner : Span) : Bool := outer.start ≤ inner.start && inner.stop ≤ outer.stop

/-- Whether each span starts before the other one ends. -/
def overlaps (a b : Span) : Bool := a.start < b.stop && b.start < a.stop

end Span

/-- A stretch of physical memory: `size` bytes from `base` on. -/
structure Region where
  base : UInt32
  size : UInt32
  deriving DecidableEq, Repr

namespace Region

/-- The first address past the region. -/
def stop (r : Region) : UInt64 := r.base.toUInt64 + r.size.toUInt64

/-- Whether the `length` bytes at `addr` lie in the region. -/
def contains (r : Region) (addr length : UInt64) : Bool :=
  r.base.toUInt64 ≤ addr && addr + length ≤ r.stop

def span (r : Region) : Span := .ofBase r.base r.size.toUInt64

end Region

def isPowerOfTwo (v : UInt32) : Bool := v ≠ 0 && v &&& (v - 1) = 0

end Intercore
