import Intercore.Resource.Table

/-!
# Reading a resource table

Reading a table from bytes that another core may have written.

The entries are found through the offsets and may lie anywhere behind them. The table that is
read has our own offsets, wherever its entries were.
-/

namespace Intercore

namespace Resource

/-- Why a table is refused. -/
inductive TableError
  | tooShort
  | badVersion (value : UInt32)
  | badEntryCount (value : UInt32)
  | badOffset
  | badResourceType (value : UInt32)
  | badDeviceId (value : UInt32)
  | badVringCount (value : UInt8)
  | badAlignment
  | unaligned
  | emptyRing
  | badRingSize (value : UInt32)
  | outsideWindow
  | overlap
  deriving DecidableEq, Repr

/-- Refuses a table unless a condition holds. -/
def require (ok : Bool) (e : TableError) : Except TableError Unit :=
  if ok then .ok () else .error e

/-- Reads a value off the front of the bytes. -/
def front {α : Type} (c : Codec α) (bytes : List UInt8) : Except TableError α :=
  match c.decode bytes with
  | some (a, _) => .ok a
  | none => .error .tooShort

/-- Reads an entry at an offset, which is a multiple of four behind the offsets. -/
def entryAt {α : Type} (c : Codec α) (bytes : List UInt8) (offset : UInt32) :
    Except TableError α := do
  require (entriesStart ≤ offset.toNat && offset % 4 = 0 && offset.toNat ≤ bytes.length) .badOffset
  front c (bytes.drop offset.toNat)

/-- The version and the number of entries are ours. -/
def Header.validate (h : Header) : Except TableError Unit := do
  require (h.ver = version) (.badVersion h.ver)
  require (h.num = entryCount) (.badEntryCount h.num)

/-- The device is a message device with two rings. -/
def Device.validate (d : Device) : Except TableError Unit := do
  require (d.type = deviceType) (.badResourceType d.type)
  require (d.id = messageDeviceId) (.badDeviceId d.id)
  require (d.numOfVrings = vringCount) (.badVringCount d.numOfVrings)

/-- The entry is one for a trace buffer. -/
def Trace.validate (t : Trace) : Except TableError Unit :=
  require (t.type = traceType) (.badResourceType t.type)

end Resource

open Resource in
/-- Reads a table. Only what frames it is checked here, not where its rings lie. -/
def ResourceTable.parse (bytes : List UInt8) : Except TableError ResourceTable := do
  let header ← front Header.codec bytes
  header.validate
  let offsets ← front Offsets.codec (bytes.drop Header.codec.size)
  let device ← entryAt Device.codec bytes offsets.device
  device.validate
  let trace ← entryAt Trace.codec bytes offsets.trace
  trace.validate
  return ⟨header, ownOffsets, device, trace⟩

end Intercore
