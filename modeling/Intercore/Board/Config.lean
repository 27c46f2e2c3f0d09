import Intercore.Span

/-!
# Board descriptions

What a board description fixes: addresses, channel counts, budgets and the shared layout.
-/

namespace Intercore

/-- A bit of one of the module reset registers. -/
structure ResetBit where
  register : UInt8
  bit : UInt8
  deriving DecidableEq, Repr

/-- Where one ring of the transport lies, as both cores must agree on it. -/
structure Vring where
  /-- The address of the ring. -/
  da : UInt32
  /-- What the used ring is aligned to. -/
  align : UInt32
  /-- How many buffers the ring has. -/
  num : UInt32
  notifyId : UInt32
  deriving DecidableEq, Repr

namespace Board

/-- The semaphore block. -/
structure Semaphores where
  base : UInt64
  channels : UInt8
  /-- How often a bounded lock tries unless told otherwise. -/
  lockAttempts : UInt32
  reset : ResetBit
  deriving DecidableEq, Repr

/-- The mailbox controller, which each core sees at an address of its own. -/
structure Mailboxes where
  appBase : UInt64
  rtBase : UInt64
  channels : UInt8
  reset : ResetBit
  deriving DecidableEq, Repr

/-- The message transport: a feature word and a ring for each direction. -/
structure Transport where
  features : UInt32
  notifyId : UInt32
  tx : Vring
  rx : Vring
  deriving DecidableEq, Repr

/-- The trace buffer of the real-time core and its name. -/
structure TraceBuffer where
  buffer : Region
  name : String
  deriving DecidableEq, Repr

/-- How the secondary core is loaded, released and heard from. -/
structure Secondary where
  /-- Where its image is loaded. -/
  load : Region
  /-- The address of the word in which it announces itself. -/
  bootFlag : UInt32
  /-- The value it announces itself with. -/
  bootMagic : UInt32
  releaseSpin : UInt32
  waitAttempts : UInt32
  reset : ResetBit
  deriving DecidableEq, Repr

end Board

/-- The description of a board. -/
structure Board where
  semaphores : Board.Semaphores
  mailboxes : Board.Mailboxes
  /-- The address of the system controller. -/
  system : UInt64
  /-- The memory that both cores can reach. -/
  shared : Region
  transport : Board.Transport
  trace : Board.TraceBuffer
  secondary : Board.Secondary
  deriving DecidableEq, Repr

end Intercore
