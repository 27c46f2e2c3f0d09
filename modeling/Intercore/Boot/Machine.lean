import Intercore.Boot.Core
import Intercore.Reset.Controller

/-!
# A model of the machine

A model of the machine around the bring-up: the memory that both cores reach, the system
controller, and a cache that keeps a record.

Memory may change while the cache is maintained: a cache may lose what was to be written back,
and the other core may have written meanwhile.
-/

namespace Intercore.Boot

/-- The memory that both cores reach: one destination, at `base`, and one flag. -/
structure Memory where
  base : UInt64
  destination : ByteArray
  flag : UInt32

namespace Memory

/-- Where images are copied to. -/
def buffer (m : Memory) : Buffer := ⟨m.base, m.destination.size⟩

def zeroed (size : Nat) : ByteArray :=
  Nat.repeat (·.push 0) size (ByteArray.emptyWithCapacity size)

/-- Copies an image to the start of the destination, which is at least as long. -/
def copy (m : Memory) (image : ByteArray) : Memory :=
  { m with destination := image ++ m.destination.extract image.size m.destination.size }

/-- The byte at an offset of the destination. -/
def load (m : Memory) (offset : Nat) : UInt8 :=
  if h : offset < m.destination.size then m.destination[offset] else 0

/-- Stores a byte in the destination. -/
def store (m : Memory) (offset : Nat) (value : UInt8) : Memory :=
  if h : offset < m.destination.size then
    { m with destination := m.destination.set offset value }
  else m

end Memory

/-- What becomes of memory when the cache is maintained for the `n`-th time in this way. -/
abbrev Disturbance := (n : Nat) → Maintenance → Memory → Memory

namespace Disturbance

/-- Nothing changes. -/
def none : Disturbance := fun _ _ m => m

/-- Bytes that differ after the `n`-th write-back and discard, given as `n`, offset and value,
and words that are in the flag by the `n`-th discard, given as `n` and value. -/
def scripted (faults : List (Nat × Nat × UInt8)) (announced : List (Nat × UInt32)) :
    Disturbance := fun n op m =>
  match op.kind with
  | .clean => m
  | .cleanInvalidate =>
    faults.foldl (fun m (k, offset, value) =>
      if k = n ∧ offset < op.length then m.store offset value else m) m
  | .invalidate =>
    announced.foldl (fun m (k, value) => if k = n then { m with flag := value } else m) m

end Disturbance

/-- How often the cache was maintained in each way. -/
structure Counts where
  clean : Nat := 0
  invalidate : Nat := 0
  cleanInvalidate : Nat := 0
  deriving DecidableEq, Repr

namespace Counts

def get (c : Counts) : Cache.Kind → Nat
  | .clean => c.clean
  | .invalidate => c.invalidate
  | .cleanInvalidate => c.cleanInvalidate

/-- Counts one more operation. -/
def add (c : Counts) : Cache.Kind → Counts
  | .clean => { c with clean := c.clean + 1 }
  | .invalidate => { c with invalidate := c.invalidate + 1 }
  | .cleanInvalidate => { c with cleanInvalidate := c.cleanInvalidate + 1 }

end Counts

/-- The machine around the bring-up. -/
structure Machine where
  memory : Memory
  controller : Reset.Controller
  /-- The cache maintenance made, newest first, with equal neighbours counted. -/
  maintained : List (Maintenance × Nat)
  counts : Counts

namespace Machine

def fresh (memory : Memory) (controller : Reset.Controller) : Machine :=
  ⟨memory, controller, [], {}⟩

/-- Keeps an operation in the record. -/
def record (op : Maintenance) : List (Maintenance × Nat) → List (Maintenance × Nat)
  | (newest, n) :: rest =>
    if newest = op then (newest, n + 1) :: rest else (op, 1) :: (newest, n) :: rest
  | [] => [(op, 1)]

def maintain (d : Disturbance) (op : Maintenance) (m : Machine) : Machine :=
  let counts := m.counts.add op.kind
  { m with
    memory := d (counts.get op.kind) op m.memory
    maintained := record op m.maintained
    counts }

def handler (d : Disturbance) : Handler Request Machine Fault
  | .reset a, m =>
    match m.controller.handler a with
    | (r, controller) => (r, { m with controller })
  | .maintain op, m => (.ok (), m.maintain d op)
  | .storeFlag _ v, m => (.ok (), { m with memory := { m.memory with flag := v } })
  | .loadFlag _, m => (.ok m.memory.flag, m)
  | .copy _ image, m => (.ok (), { m with memory := m.memory.copy image })
  | .load _ offset, m => (.ok (m.memory.load offset), m)
  | .delay _, m => (.ok (), m)
  | .wake, m => (.ok (), m)

end Machine

end Intercore.Boot
