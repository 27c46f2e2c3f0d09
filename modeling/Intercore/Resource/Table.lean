import Intercore.Board.Config
import Intercore.Board.Evaluation
import Intercore.Resource.Codec

/-!
# Resource tables

The resource table that ties the two cores' images together.

A table has a header, the offsets of its entries, an entry for the message device with its two
rings, and an entry for the trace buffer. All numbers are stored lowest byte first.
-/

namespace Intercore.Resource

/-- The start of a table. -/
structure Header where
  ver : UInt32
  /-- The number of entries. -/
  num : UInt32
  reserved : Vector UInt32 2
  deriving DecidableEq, Repr

/-- A ring, as the device entry describes it. -/
structure VringDesc where
  da : UInt32
  align : UInt32
  num : UInt32
  notifyId : UInt32
  reserved : UInt32
  deriving DecidableEq, Repr

/-- The entry for the message device. -/
structure Device where
  type : UInt32
  id : UInt32
  notifyId : UInt32
  dfeatures : UInt32
  gfeatures : UInt32
  configLen : UInt32
  status : UInt8
  numOfVrings : UInt8
  reserved : Vector UInt8 2
  /-- The ring from the host to the remote. -/
  tx : VringDesc
  /-- The ring back. -/
  rx : VringDesc
  deriving DecidableEq, Repr

/-- The offsets of the two entries from the start of a table. -/
structure Offsets where
  device : UInt32
  trace : UInt32
  deriving DecidableEq, Repr

/-- The entry for the trace buffer. -/
structure Trace where
  type : UInt32
  da : UInt32
  len : UInt32
  reserved : UInt32
  name : Vector UInt8 32
  deriving DecidableEq, Repr

end Resource

open Resource in
/-- A resource table with its two entries. -/
structure ResourceTable where
  header : Header
  offsets : Offsets
  device : Device
  trace : Trace
  deriving DecidableEq, Repr

namespace Resource

open Codec

def Header.codec : Codec Header :=
  (word.pair (word.pair (word.many 2))).map
    (fun (ver, num, reserved) => ⟨ver, num, reserved⟩)
    (fun h => (h.ver, h.num, h.reserved))

/-- The layout of a ring description. -/
def VringDesc.codec : Codec VringDesc :=
  (word.pair (word.pair (word.pair (word.pair word)))).map
    (fun (da, align, num, notifyId, reserved) => ⟨da, align, num, notifyId, reserved⟩)
    (fun v => (v.da, v.align, v.num, v.notifyId, v.reserved))

/-- The layout of a device entry. -/
def Device.codec : Codec Device :=
  (word.pair (word.pair (word.pair (word.pair (word.pair (word.pair (byte.pair (byte.pair
    ((byte.many 2).pair (VringDesc.codec.pair VringDesc.codec)))))))))).map
    (fun (type, id, notifyId, dfeatures, gfeatures, configLen, status, numOfVrings, reserved, tx,
        rx) =>
      ⟨type, id, notifyId, dfeatures, gfeatures, configLen, status, numOfVrings, reserved, tx, rx⟩)
    (fun d => (d.type, d.id, d.notifyId, d.dfeatures, d.gfeatures, d.configLen, d.status,
      d.numOfVrings, d.reserved, d.tx, d.rx))

/-- The layout of a trace entry. -/
def Trace.codec : Codec Trace :=
  (word.pair (word.pair (word.pair (word.pair (byte.many 32))))).map
    (fun (type, da, len, reserved, name) => ⟨type, da, len, reserved, name⟩)
    (fun t => (t.type, t.da, t.len, t.reserved, t.name))

def Offsets.codec : Codec Offsets :=
  (word.pair word).map (fun (device, trace) => ⟨device, trace⟩) (fun o => (o.device, o.trace))

/-- The layout of a whole table. -/
def tableCodec : Codec ResourceTable :=
  (Header.codec.pair (Offsets.codec.pair (Device.codec.pair Trace.codec))).map
    (fun (header, offsets, device, trace) => ⟨header, offsets, device, trace⟩)
    (fun t => (t.header, t.offsets, t.device, t.trace))

def version : UInt32 := 1

/-- The number of entries in a table. -/
def entryCount : UInt32 := 2

def traceType : UInt32 := 2

def deviceType : UInt32 := 3

def messageDeviceId : UInt32 := 7

/-- The number of rings of a message device. -/
def vringCount : UInt8 := 2

/-- The first byte past the header and the offsets. -/
def entriesStart : Nat := Header.codec.size + Offsets.codec.size

/-- Where the entries of our own tables start. -/
def ownOffsets : Offsets :=
  ⟨.ofNat entriesStart, .ofNat (entriesStart + Device.codec.size)⟩

/-- What differs from board to board. -/
structure Layout where
  features : UInt32
  notifyId : UInt32
  tx : Vring
  rx : Vring
  trace : Region
  traceName : String
  deriving DecidableEq, Repr

def Layout.ofBoard (b : Board) : Layout where
  features := b.transport.features
  notifyId := b.transport.notifyId
  tx := b.transport.tx
  rx := b.transport.rx
  trace := b.trace.buffer
  traceName := b.trace.name

/-- The description of a ring. -/
def VringDesc.ofVring (v : Vring) : VringDesc := ⟨v.da, v.align, v.num, v.notifyId, 0⟩

/-- A name in 32 bytes, cut so that at least one zero byte ends it. -/
def nameBytes (name : String) : Vector UInt8 32 :=
  let bytes := name.toUTF8.toList.take 31
  .ofFn fun i => bytes[i]?.getD 0

end Resource

namespace ResourceTable

open Resource

def ofLayout (l : Layout) : ResourceTable where
  header := ⟨version, entryCount, #v[0, 0]⟩
  offsets := ownOffsets
  device :=
    { type := deviceType
      id := messageDeviceId
      notifyId := l.notifyId
      dfeatures := l.features
      gfeatures := 0
      configLen := 0
      status := 0
      numOfVrings := vringCount
      reserved := #v[0, 0]
      tx := .ofVring l.tx
      rx := .ofVring l.rx }
  trace := ⟨traceType, l.trace.base, l.trace.size, 0, nameBytes l.traceName⟩

/-- The table of the evaluation board, which both cores hand out. -/
def board : ResourceTable := ofLayout (.ofBoard .evaluation)

def bytes (t : ResourceTable) : List UInt8 := tableCodec.encode t

/-- The name of the trace buffer, up to its first zero byte. -/
def traceName (t : ResourceTable) : List UInt8 := t.trace.name.toList.takeWhile (· ≠ 0)

end ResourceTable

end Intercore
