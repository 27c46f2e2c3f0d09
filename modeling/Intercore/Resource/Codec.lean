/-!
# Byte layouts

Fixed layouts of bytes: how a value is laid out, and how it is read back off the front.

Layouts are put together from those of the parts, so that the offset of each field follows from
the sizes of the fields before it.
-/

namespace Intercore

/-- A layout in which every value of `α` takes `size` bytes. -/
structure Codec (α : Type) where
  size : Nat
  encode : α → List UInt8
  /-- Reads a value off the front of the bytes; `none` if there are too few. -/
  decode : List UInt8 → Option (α × List UInt8)

namespace Codec

variable {α β : Type}

def byte : Codec UInt8 where
  size := 1
  encode b := [b]
  decode
    | b :: rest => some (b, rest)
    | [] => none

/-- The word whose bytes these are, the lowest first. -/
def wordOf (a b c d : UInt8) : UInt32 :=
  a.toUInt32 ||| b.toUInt32 <<< 8 ||| c.toUInt32 <<< 16 ||| d.toUInt32 <<< 24

/-- Four bytes, the lowest first. -/
def word : Codec UInt32 where
  size := 4
  encode w := [w.toUInt8, (w >>> 8).toUInt8, (w >>> 16).toUInt8, (w >>> 24).toUInt8]
  decode
    | a :: b :: c :: d :: rest => some (wordOf a b c d, rest)
    | _ => none

/-- One value after the other. -/
def pair (ca : Codec α) (cb : Codec β) : Codec (α × β) where
  size := ca.size + cb.size
  encode p := ca.encode p.1 ++ cb.encode p.2
  decode bytes := do
    let (a, bytes) ← ca.decode bytes
    let (b, bytes) ← cb.decode bytes
    return ((a, b), bytes)

/-- The same layout for another type. -/
def map (c : Codec α) (into : α → β) (back : β → α) : Codec β where
  size := c.size
  encode b := c.encode (back b)
  decode bytes := (c.decode bytes).map fun (a, rest) => (into a, rest)

/-- Reads `n` values off the front. -/
def decodeMany (c : Codec α) : (n : Nat) → List UInt8 → Option (Vector α n × List UInt8)
  | 0, bytes => some (#v[], bytes)
  | n + 1, bytes => do
    let (v, bytes) ← c.decodeMany n bytes
    let (a, bytes) ← c.decode bytes
    return (v.push a, bytes)

/-- `n` values in a row. -/
def many (c : Codec α) (n : Nat) : Codec (Vector α n) where
  size := n * c.size
  encode v := v.toList.flatMap c.encode
  decode := c.decodeMany n

end Codec

end Intercore
