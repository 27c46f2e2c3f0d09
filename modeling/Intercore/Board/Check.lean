import Intercore.Board.Config
import Intercore.Text.Quoted

/-!
# Checking a board description

A description is checked before anything is built from it. It is refused if a channel or reset
line does not exist in hardware, if the shared areas are misaligned or leave the shared window,
or if two areas overlap. The first failing test decides the complaint.
-/

namespace Intercore

/-- A ring of `num` buffers in memory: the descriptors and the ring of available buffers, then,
from the next multiple of `align` on, the ring of used buffers. The size in bytes. -/
def Vring.packedSize (num align : UInt32) : UInt64 :=
  let num := num.toUInt64
  let align := align.toUInt64
  let availEnd := 16 * num + 2 * (3 + num)
  let used := ceilDiv availEnd align * align
  used + 2 * 3 + 8 * num
where
  /-- The quotient, rounded up. -/
  ceilDiv (a b : UInt64) : UInt64 := if a % b = 0 then a / b else a / b + 1

/-- The addresses that a ring takes. -/
def Vring.area (v : Vring) : Span := .ofBase v.da (packedSize v.num v.align)

namespace Board

/-- A hardware block or area, as complaints name it. -/
inductive Part
  | semaphores
  | mailboxes
  | secondary
  | tx
  | rx
  | trace
  | bootFlag
  | image
  deriving DecidableEq, Repr

def Part.name : Part → String
  | semaphores => "hwsem"
  | mailboxes => "whc"
  | secondary => "secondary"
  | tx => "rpmsg.tx"
  | rx => "rpmsg.rx"
  | trace => "trace"
  | bootFlag => "boot flag"
  | image => "secondary image"

/-- Why a description is refused. -/
inductive Complaint
  | channels (part : Part) (count : UInt8)
  | resetLine (part : Part) (reset : ResetBit)
  | alignment (part : Part) (align : UInt32)
  | misaligned (part : Part) (da align : UInt32)
  | bufferCount (part : Part) (num : UInt32)
  | outside (part : Part) (area : Span)
  | notifyId (id : UInt32)
  | longName (name : String)
  | flagMisaligned (addr : UInt32)
  | zeroMagic
  | flagOutside (area : Span)
  | overlap (a : Part) (areaA : Span) (b : Part) (areaB : Span)
  deriving DecidableEq, Repr

/-- A range of addresses as complaints show it. -/
def showSpan (s : Span) : String := Text.hex s.start.toNat ++ ".." ++ Text.hex s.stop.toNat

def Complaint.message : Complaint → String
  | channels part count =>
    part.name ++ ": " ++ toString count ++ " channels won't fit the interrupt registers"
  | resetLine part r =>
    part.name ++ ": reset line " ++ toString r.register ++ ":" ++ toString r.bit
      ++ " does not exist"
  | alignment part align =>
    part.name ++ ": alignment " ++ Text.hex align.toNat ++ " is not a power of two"
  | misaligned part da align =>
    part.name ++ ": address " ++ Text.hex da.toNat ++ " not aligned to " ++ Text.hex align.toNat
  | bufferCount part num =>
    part.name ++ ": buffer count " ++ toString num ++ " is not a power of two"
  | outside part area => part.name ++ ": " ++ showSpan area ++ " lies outside the shared window"
  | notifyId id => "rpmsg: both vrings use notify id " ++ toString id
  | longName name => "trace: name " ++ Text.quote name ++ " is longer than 31 bytes"
  | flagMisaligned addr =>
    "secondary: boot flag " ++ Text.hex addr.toNat ++ " is not word aligned"
  | zeroMagic => "secondary: boot magic must be non-zero"
  | flagOutside area =>
    "secondary: boot flag " ++ showSpan area ++ " is outside the shared window"
  | overlap a areaA b areaB =>
    a.name ++ " " ++ showSpan areaA ++ " overlaps " ++ b.name ++ " " ++ showSpan areaB

/-- Complains unless a condition holds. -/
def require (ok : Bool) (c : Complaint) : Except Complaint Unit :=
  if ok then .ok () else .error c

/-- There is at least one channel and no more than the hardware has bits for. -/
def checkChannels (part : Part) (count limit : UInt8) : Except Complaint Unit :=
  require (count ≠ 0 && count ≤ limit) (.channels part count)

/-- There are four reset registers of 32 bits. -/
def checkReset (part : Part) (r : ResetBit) : Except Complaint Unit :=
  require (r.register ≤ 3 && r.bit ≤ 31) (.resetLine part r)

/-- A ring is aligned, has a power of two of buffers, and lies in the window. -/
def checkVring (part : Part) (v : Vring) (window : Span) : Except Complaint Unit := do
  require (isPowerOfTwo v.align) (.alignment part v.align)
  require (v.da % v.align = 0) (.misaligned part v.da v.align)
  require (isPowerOfTwo v.num) (.bufferCount part v.num)
  require (window.covers v.area) (.outside part v.area)

/-- No area overlaps one that comes later in the list. -/
def checkApart : List (Part × Span) → Except Complaint Unit
  | [] => .ok ()
  | (a, areaA) :: rest =>
    match rest.find? fun (_, areaB) => areaA.overlaps areaB with
    | some (b, areaB) => .error (.overlap a areaA b areaB)
    | none => checkApart rest

def Secondary.flagArea (s : Secondary) : Span := .ofBase s.bootFlag 4

/-- The areas that must not overlap, in the order in which they are compared. -/
def areas (b : Board) : List (Part × Span) :=
  [(.tx, b.transport.tx.area), (.rx, b.transport.rx.area), (.trace, b.trace.buffer.span),
   (.bootFlag, b.secondary.flagArea), (.image, b.secondary.load.span)]

/-- All tests but the comparison of the areas. -/
def checkLocated (b : Board) : Except Complaint Unit := do
  checkChannels .semaphores b.semaphores.channels 32
  checkChannels .mailboxes b.mailboxes.channels 16
  checkReset .semaphores b.semaphores.reset
  checkReset .mailboxes b.mailboxes.reset
  checkReset .secondary b.secondary.reset
  let window := b.shared.span
  checkVring .tx b.transport.tx window
  checkVring .rx b.transport.rx window
  require (b.transport.tx.notifyId ≠ b.transport.rx.notifyId) (.notifyId b.transport.tx.notifyId)
  let trace := b.trace.buffer.span
  require (!trace.isEmpty && window.covers trace) (.outside .trace trace)
  require (b.trace.name.utf8ByteSize < 32) (.longName b.trace.name)
  require (b.secondary.bootFlag % 4 = 0) (.flagMisaligned b.secondary.bootFlag)
  require (b.secondary.bootMagic ≠ 0) .zeroMagic
  require (window.covers b.secondary.flagArea) (.flagOutside b.secondary.flagArea)

/-- Accepts a description or says what is wrong with it. -/
def check (b : Board) : Except Complaint Unit := do
  b.checkLocated
  checkApart b.areas

end Board

end Intercore
