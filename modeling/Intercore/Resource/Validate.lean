import Intercore.Resource.Parse

/-!
# Validating a resource table

Checking that a table can be used with memory inside a window.

The rings must be aligned and non-empty, everything must lie in the window, and no two of the
rings and the trace buffer may overlap. Sizes are computed in 64 bits, so that whatever a peer
writes into its table has its true size.
-/

namespace Intercore

namespace Resource

/-- A ring of `num` buffers in memory: the descriptors and the ring of available buffers, padded
to `align`, a power of two, then the ring of used buffers. The size in bytes. -/
def vringSize (num align : UInt32) : UInt64 :=
  let num := num.toUInt64
  let align := align.toUInt64
  let availEnd := 16 * num + 2 * (3 + num)
  let used := (availEnd + align - 1) &&& ~~~(align - 1)
  used + 2 * 3 + 8 * num

/-- The addresses that a ring takes. -/
def VringDesc.area (v : VringDesc) : Span := .ofBase v.da (vringSize v.num v.align)

/-- The addresses of the trace buffer. -/
def Trace.area (t : Trace) : Span := .ofBase t.da t.len.toUInt64

/-- A ring is aligned, not empty, has a power of two of buffers, and lies in the window. -/
def VringDesc.validate (v : VringDesc) (window : Region) : Except TableError Unit := do
  require (isPowerOfTwo v.align) .badAlignment
  require (v.da % v.align = 0) .unaligned
  require (v.num ≠ 0) .emptyRing
  require (isPowerOfTwo v.num) (.badRingSize v.num)
  require (window.contains v.area.start (v.area.stop - v.area.start)) .outsideWindow

end Resource

open Resource in
/-- Accepts a table for memory inside `window`, or says why not. -/
def ResourceTable.validate (t : ResourceTable) (window : Region) : Except TableError Unit := do
  t.header.validate
  t.device.validate
  t.trace.validate
  let tx := t.device.tx
  let rx := t.device.rx
  tx.validate window
  rx.validate window
  require (window.contains t.trace.area.start (t.trace.area.stop - t.trace.area.start))
    .outsideWindow
  require (!(tx.area.overlaps rx.area || tx.area.overlaps t.trace.area
    || rx.area.overlaps t.trace.area)) .overlap

end Intercore
