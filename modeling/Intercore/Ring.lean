import Intercore.Cell

/-!
# Trace rings

Ring buffers of trace entries.

An entry that repeats the newest one, with equal line and payload, only counts it up; any other
takes over the slot after it, which is the oldest. A slot counts how often it has been
rewritten, so that slots never used can be told from the rest.
-/

namespace Intercore

/-- What a slot of the buffer holds. -/
structure Entry (α : Type) where
  line : UInt16
  /-- How often the slot has been written, modulo 2^16. -/
  generation : UInt16
  /-- How often the entry has been made in a row. -/
  count : UInt32
  payload : α
  deriving DecidableEq, Repr

/-- A buffer of `n` slots; `last` is the index of the newest entry. -/
structure Ring (α : Type) (n : Nat) where
  last : Option UInt64
  slots : Vector (Entry α) n
  deriving DecidableEq, Repr

namespace Ring

variable {α : Type} {n : Nat}

/-- A buffer with no entry, all its slots holding `payload`. -/
def empty (payload : α) (n : Nat) : Ring α n :=
  ⟨none, .replicate n ⟨0, 0, 0, payload⟩⟩

/-- The slot after `last`. An absent or wild index is followed by slot zero. -/
def successor (last : UInt64) (n : Nat) : Nat :=
  if (last + 1).toNat ≥ n then 0 else (last + 1).toNat

/-- The index of the newest entry, and an index past every buffer if there is none. -/
def lastIndex (r : Ring α n) : UInt64 := r.last.getD (.ofNat (UInt64.size - 1))

/-- Whether one more call with this line and payload can be counted on the newest entry. -/
def repeats [DecidableEq α] (e : Entry α) (line : UInt16) (payload : α) : Bool :=
  e.line = line && e.payload = payload && e.count.toNat + 1 < UInt32.size

/-- Puts a new entry into the slot after the newest one. -/
def push (r : Ring α n) (line : UInt16) (payload : α) : Except Fault (Ring α n) :=
  let i := successor r.lastIndex n
  if h : i < n then
    .ok ⟨some (.ofNat i), r.slots.set i ⟨line, r.slots[i].generation + 1, 1, payload⟩⟩
  else .error (.outOfBounds n i)

/-- Records an entry: counts the newest one up if it is the same, and else takes a new slot. -/
def entry [DecidableEq α] (r : Ring α n) (line : UInt16) (payload : α) :
    Except Fault (Ring α n) :=
  let i := r.lastIndex.toNat
  if h : i < n then
    let e := r.slots[i]
    if repeats e line payload then
      .ok { r with slots := r.slots.set i { e with count := e.count + 1 } }
    else r.push line payload
  else r.push line payload

/-- Puts an entry into a slot of one's choice. Which slot is the newest does not change. -/
def overwrite (r : Ring α n) (i : Nat) (e : Entry α) : Except Fault (Ring α n) :=
  if h : i < n then .ok { r with slots := r.slots.set i e } else .error (.outOfBounds n i)

/-- The entries that were ever written, newest first. The slots after `last` are older than
those up to it. -/
def recent (r : Ring α n) : Except Fault (List (Entry α)) :=
  match r.last with
  | none => .ok (newest 0)
  | some l => if l.toNat + 1 < UInt64.size then .ok (newest (l.toNat + 1)) else .error .addOverflow
where
  newest (start : Nat) : List (Entry α) :=
    let slots := r.slots.toList
    (slots.drop start ++ slots.take start).reverse.filter fun e => e.generation ≠ 0

end Ring

/-- A buffer that several contexts write to, and how many entries were lost because the buffer
was lent out at the time. -/
structure SharedRing (α : Type) (n : Nat) where
  cell : Cell (Ring α n)
  dropped : UInt32 := 0
  deriving DecidableEq, Repr

namespace SharedRing

variable {α : Type} {n : Nat}

/-- Records an entry if the buffer is free, and else counts it as dropped. -/
def record [DecidableEq α] (s : SharedRing α n) (line : UInt16) (payload : α) :
    Except Fault Unit × SharedRing α n :=
  match s.cell.tryBorrow with
  | (true, c) =>
    match c.contents.entry line payload with
    | .ok r => (.ok (), { s with cell := { c with contents := r }.release })
    | .error e => (.error e, { s with cell := c.release })
  | (false, c) => (.ok (), ⟨c, s.dropped + 1⟩)

end SharedRing

end Intercore
