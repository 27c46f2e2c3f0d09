import Intercore.Mailbox.Transfer

/-!
# Outboxes

A queue of messages in front of the slot of a channel.

Posting never touches the hardware; pumping moves the oldest message into the slot when the
message before it has been acknowledged.
-/

namespace Intercore.Mailbox

/-- Messages that wait to be sent on a channel, oldest first, at most `depth` of them. -/
structure Outbox where
  channel : Channel
  depth : Nat
  queue : List Message
  deriving DecidableEq, Repr

namespace Outbox

def empty (channel : Channel) (depth : Nat) : Outbox := ⟨channel, depth, []⟩

/-- How many messages wait. -/
def length (o : Outbox) : Nat := o.queue.length

/-- Whether no message waits. -/
def isEmpty (o : Outbox) : Bool := o.queue.isEmpty

/-- Queues a message behind the others; a full queue hands it back. -/
def post (o : Outbox) (msg : Message) : Except Message Outbox :=
  if o.queue.length < o.depth then .ok { o with queue := o.queue ++ [msg] } else .error msg

/-- Sends the oldest message if the channel is ready: whether a message went out, and the outbox
without it. -/
def pump (o : Outbox) : Prog (Bool × Outbox) :=
  match o.queue with
  | [] => return (false, o)
  | msg :: rest => do
    match ← trySend o.channel msg with
    | .ok () => return (true, { o with queue := rest })
    | .error .busy => return (false, o)

end Outbox

end Intercore.Mailbox
