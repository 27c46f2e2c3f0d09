import Intercore.Mailbox.Transfer
import Intercore.Proofs.Interleaving
import Intercore.Proofs.Mailbox.Lane

/-!
# Traffic on a lane

One context sends on a lane and another one receives from it. Both of them, and any number of
other contexts, may use the controller for anything else at the same time.
-/

namespace Intercore.Mailbox

/-- What a context may do. -/
inductive Call
  | trySend (ch : Channel) (msg : Message)
  | recv (ch : Channel)
  /-- A single access, made by hand. -/
  | access (q : Access Register)
  deriving DecidableEq, Repr

namespace Call

abbrev Answer : Call → Type
  | trySend _ _ => Except SendError Unit
  | recv _ => Option Message
  | access q => Request.Answer q

instance : Request Call := ⟨Answer⟩

def program : (k : Call) → Prog (Request.Answer k)
  | trySend ch msg => Mailbox.trySend ch msg
  | recv ch => Mailbox.recv ch
  | access q => .request q

def read (r : Register) : Program Call UInt32 := .request (access (.read r))

def write (r : Register) (value : UInt32) : Program Call Unit :=
  .request (access (.write r value))

@[simp] lemma interpret_read (r : Register) : (read r).interpret program = Mailbox.read r := rfl

@[simp] lemma interpret_write (r : Register) (value : UInt32) :
    (write r value).interpret program = Mailbox.write r value := rfl

/-- The message that a call sent on a channel, if it did. -/
def sentOn? (ch : Channel) : (k : Call) → Request.Answer k → Option Message
  | trySend c msg, .ok () => if c = ch then some msg else none
  | _, _ => none

/-- The message that a call obtained from a channel, if it did. -/
def obtainedFrom? (ch : Channel) : (k : Call) → Request.Answer k → Option Message
  | recv c, some msg => if c = ch then some msg else none
  | _, _ => none

end Call

/-!
### The accesses of the calls
-/

section Accesses

variable {P : Access Register → Prop} {ch : Channel}

lemma send_all (msg : Message) (hready : P (.read .txsts))
    (hput : ∀ (word : Fin 4) value, P (.write (.tmdat ch.index word) value))
    (htrigger : P (.write .txctl ch.mask)) : (send ch msg).All P :=
  ⟨hready, fun _ => ⟨hput 0 _, fun _ => ⟨hput 1 _, fun _ => ⟨hput 2 _, fun _ => ⟨hput 3 _,
    fun _ => ⟨htrigger, fun _ => trivial⟩⟩⟩⟩⟩⟩

lemma trySend_all {msg : Message} (hready : P (.read .txsts)) (hsend : (send ch msg).All P) :
    (trySend ch msg).All P := by
  refine ⟨hready, fun status => ?_⟩
  simp only [Program.pure_eq, Program.done_bind]
  split
  · exact Program.all_bind hsend fun _ => trivial
  · trivial

lemma recv_all (hclear : P (.write .intsts ch.mask)) (havailable : P (.read .rxsts))
    (hget : ∀ word : Fin 4, P (.read (.rmdat ch.index word))) (hack : P (.write .rxctl ch.mask)) :
    (recv ch).All P := by
  refine ⟨hclear, fun _ => ⟨havailable, fun status => ?_⟩⟩
  simp only [Program.pure_eq, Program.done_bind]
  split
  · exact ⟨hget 0, fun _ => ⟨hget 1, fun _ => ⟨hget 2, fun _ => ⟨hget 3, fun _ => ⟨hack,
      fun _ => trivial⟩⟩⟩⟩⟩
  · trivial

end Accesses

/-!
### The interrupt handler

It only looks at the flags itself; for each message it receives, so it is a script of calls.
-/

variable {β : Type}

def drainCalls (pending : UInt32) (deliver : Channel → Message → Program Call β) :
    List Channel → Program Call (List β)
  | [] => return []
  | ch :: rest => do
    if pending &&& ch.mask ≠ 0 then
      match ← .request (Call.recv ch) with
      | some msg =>
        let b ← deliver ch msg
        return b :: (← drainCalls pending deliver rest)
      | none => drainCalls pending deliver rest
    else drainCalls pending deliver rest

/-- `handleInterrupt` as a script. What is done with a message may be any script in turn. -/
def interruptCalls (deliver : Channel → Message → Program Call β) :
    Program Call (List β × UInt32) := do
  let status ← Call.read .intsts
  let enabled ← Call.read .inten
  let pending := status &&& enabled
  let delivered ← drainCalls pending deliver Channel.all
  let acked := ackBits pending
  if acked ≠ 0 then Call.write .intsts acked
  return (delivered, acked >>> ackShift)

lemma interpret_drainCalls (pending : UInt32) (deliver : Channel → Message → Program Call β)
    (channels : List Channel) :
    (drainCalls pending deliver channels).interpret Call.program =
      drain pending (fun ch msg => (deliver ch msg).interpret Call.program) channels := by
  induction channels with
  | nil => rfl
  | cons ch rest ih =>
    rw [drainCalls, drain_cons]
    split
    · simp only [Program.bind_eq, Program.pure_eq, Program.interpret_bind,
        Program.interpret_request]
      refine congrArg (Program.bind _) (funext fun got => ?_)
      cases got with
      | none => exact ih
      | some msg => simp only [Program.interpret_bind, Program.interpret_done, ih]
    · exact ih

/-- The script makes the accesses of the interrupt handler and returns what it returns. -/
lemma interpret_interruptCalls (deliver : Channel → Message → Program Call β) :
    (interruptCalls deliver).interpret Call.program =
      handleInterrupt fun ch msg => (deliver ch msg).interpret Call.program := by
  simp only [interruptCalls, handleInterrupt_eq, Program.bind_eq, Program.pure_eq,
    Program.interpret_bind, Call.interpret_read, interpret_drainCalls]
  -- up to the last write both make the same accesses
  refine congrArg (Program.bind _) (funext fun status => ?_)
  refine congrArg (Program.bind _) (funext fun enabled => ?_)
  refine congrArg (Program.bind _) (funext fun delivered => ?_)
  split
  · simp only [Program.interpret_bind, Call.interpret_write, Program.interpret_done]
  · rfl

/-!
### Who does what
-/

/-- One lane in use. -/
structure Traffic (ι : Type) where
  lane : Lane
  side : ι → Side
  sender : ι
  receiver : ι
  side_sender : side sender = lane.source
  side_receiver : side receiver = lane.source.peer

namespace Traffic

variable {ι : Type}

lemma sender_ne_receiver (t : Traffic ι) : t.sender ≠ t.receiver := by
  intro h
  have hside := t.side_receiver
  rw [← h, t.side_sender] at hside
  exact Side.peer_ne _ hside.symm

variable [DecidableEq ι]

/-- Only the sender sends on the lane, and only the receiver receives from it, both of them with
the calls made for it. Anything else may be done by everyone, even by hand. -/
def permits (t : Traffic ι) (i : ι) : Call → Bool
  | .trySend ch _ => i = t.sender ∨ ¬ (t.side i = t.lane.source ∧ ch = t.lane.channel)
  | .recv ch => i = t.receiver ∨ ¬ (t.side i = t.lane.source.peer ∧ ch = t.lane.channel)
  | .access q => isServed q ∧ t.lane.touch (t.side i) q = none

def ensemble (t : Traffic ι) : Ensemble ι Call (Access Register) Controller Fault where
  handler i := Controller.handler (t.side i)
  program _ := Call.program
  permits := t.permits

/-- The messages that were sent, oldest first. -/
def sent (t : Traffic ι) (h : History ι Call) : List Message :=
  h.results t.sender (Call.sentOn? t.lane.channel)

/-- The messages that were obtained, oldest first. -/
def obtained (t : Traffic ι) (h : History ι Call) : List Message :=
  h.results t.receiver (Call.obtainedFrom? t.lane.channel)

end Traffic

end Intercore.Mailbox
