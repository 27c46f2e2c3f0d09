import Intercore.Span

/-!
# Cache maintenance

Maintenance of a data cache that other cores do not snoop.

Writers clean what they wrote, readers invalidate before they read. The record keeps every
operation, so that a run can be checked for the maintenance it made.
-/

namespace Intercore.Cache

/-- What is done to the lines of a range. -/
inductive Kind
  /-- Dirty lines are written back to memory. -/
  | clean
  /-- Lines are dropped, so that the next read comes from memory. -/
  | invalidate
  /-- Dirty lines are written back, then all are dropped. -/
  | cleanInvalidate
  deriving DecidableEq, Repr

namespace Kind

/-- Whether dirty data reaches memory. -/
def writesBack : Kind → Bool
  | invalidate => false
  | _ => true

/-- Whether cached data is dropped. -/
def discards : Kind → Bool
  | clean => false
  | _ => true

end Kind

/-- One maintenance operation on a range of addresses. -/
structure Op where
  kind : Kind
  range : Span
  deriving DecidableEq, Repr

/-- Every operation made so far, oldest first. -/
abbrev Record := Array Op

namespace Record

/-- Whether one recorded write-back covers the whole range. -/
def cleaned (r : Record) (range : Span) : Bool :=
  r.any fun op => op.kind.writesBack && op.range.covers range

/-- Whether one recorded discard covers the whole range. -/
def invalidated (r : Record) (range : Span) : Bool :=
  r.any fun op => op.kind.discards && op.range.covers range

end Record

/-- The addresses of an object of `size` bytes at `addr`. -/
def byteRange (addr : UInt64) (size : Nat) : Span := ⟨addr, addr + .ofNat size⟩

/-- Cleans an object. -/
def cleanObj (addr : UInt64) (size : Nat) : Op := ⟨.clean, byteRange addr size⟩

/-- Invalidates an object. -/
def invalidateObj (addr : UInt64) (size : Nat) : Op := ⟨.invalidate, byteRange addr size⟩

/-- The sum of two words, held at the largest word where it would wrap. -/
def saturatingAdd (a b : UInt64) : UInt64 :=
  if a.toNat + b.toNat < UInt64.size then a + b else .ofNat (UInt64.size - 1)

/-- Rounds a word down to a multiple of `line`, a power of two. -/
def alignDown (a line : UInt64) : UInt64 := a &&& ~~~(line - 1)

/-- Widens a range to whole lines of `line` bytes, a power of two. -/
def lineSpan (range : Span) (line : UInt64) : Span :=
  ⟨alignDown range.start line, alignDown (saturatingAdd range.stop (line - 1)) line⟩

end Intercore.Cache
