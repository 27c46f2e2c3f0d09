import Intercore.Mailbox.Register

/-!
# Sending and receiving messages

The hardware does not stop a sender from writing to a slot whose message was not read yet; the
new words replace the old ones. `send` keeps that, everything else refuses.
-/

namespace Intercore.Mailbox

/-- Whether the last message sent on a channel has been acknowledged. -/
def isTxReady (ch : Channel) : Prog Bool := return (← read .txsts) &&& ch.mask ≠ 0

/-- Whether a message waits on a channel. -/
def isRxAvailable (ch : Channel) : Prog Bool := return (← read .rxsts) &&& ch.mask ≠ 0

/-- Writes the words of a message into the slot and triggers it. -/
def fill (ch : Channel) (msg : Message) : Prog Unit := do
  write (.tmdat ch.index 0) msg[0]
  write (.tmdat ch.index 1) msg[1]
  write (.tmdat ch.index 2) msg[2]
  write (.tmdat ch.index 3) msg[3]
  write .txctl ch.mask

/-- Sends a message whether or not the channel is ready. The status is read for the record
only. -/
def send (ch : Channel) (msg : Message) : Prog Unit := do
  let _ ← isTxReady ch
  fill ch msg

/-- Why a message was not sent. -/
inductive SendError
  /-- The message before it has not been acknowledged. -/
  | busy
  deriving DecidableEq, Repr

/-- Sends a message if the channel is ready. -/
def trySend (ch : Channel) (msg : Message) : Prog (Except SendError Unit) := do
  if ← isTxReady ch then
    send ch msg
    return .ok ()
  else return .error .busy

/-- Takes the message that waits on a channel. The receive flag is cleared before the look, so
that a message which arrives later raises it again. -/
def recv (ch : Channel) : Prog (Option Message) := do
  write .intsts ch.mask
  if ← isRxAvailable ch then
    let a ← read (.rmdat ch.index 0)
    let b ← read (.rmdat ch.index 1)
    let c ← read (.rmdat ch.index 2)
    let d ← read (.rmdat ch.index 3)
    write .rxctl ch.mask
    return some #v[a, b, c, d]
  else return none

/-- Sets bits of the enabled interrupts. -/
def enable (bits : UInt32) : Prog Unit := do
  let v ← read .inten
  write .inten (v ||| bits)

/-- Clears bits of the enabled interrupts. -/
def disable (bits : UInt32) : Prog Unit := do
  let v ← read .inten
  write .inten (v &&& ~~~bits)

/-- Enables the interrupt for messages on a channel. -/
def enableRxInt (ch : Channel) : Prog Unit := enable ch.mask

def disableRxInt (ch : Channel) : Prog Unit := disable ch.mask

/-- Enables the interrupt for acknowledgements of what was sent on a channel. -/
def enableTxInt (ch : Channel) : Prog Unit := enable ch.ackMask

def disableTxInt (ch : Channel) : Prog Unit := disable ch.ackMask

section Drain

variable {σ β : Type}

/-- Receives on those of the channels that are pending and hands each message over, with a state
that goes from message to message. -/
def drainWith (pending : UInt32) (deliver : Channel → Message → σ → Prog σ) :
    List Channel → σ → Prog σ
  | [], s => return s
  | ch :: rest, s => do
    if pending &&& ch.mask ≠ 0 then
      match ← recv ch with
      | some msg => drainWith pending deliver rest (← deliver ch msg s)
      | none => drainWith pending deliver rest s
    else drainWith pending deliver rest s

/-- Keeps the results in order. -/
def collecting (deliver : Channel → Message → Prog β) (ch : Channel) (msg : Message)
    (before : List β) : Prog (List β) := do
  return before ++ [← deliver ch msg]

/-- `drainWith` for those who only want the results of handing over, in order. -/
def drain (pending : UInt32) (deliver : Channel → Message → Prog β) (channels : List Channel) :
    Prog (List β) :=
  drainWith pending (collecting deliver) channels []

/-- The send-acknowledged flags among some bits. -/
def ackBits (bits : UInt32) : UInt32 := bits &&& ~~~((1 <<< ackShift) - 1)

/-- What the interrupt handler does: it hands over the messages of the enabled channels whose
receive flag is latched, and clears the enabled send-acknowledged flags. The state after handing
over, and the channels whose messages were acknowledged. -/
def handleInterruptWith (deliver : Channel → Message → σ → Prog σ) (s : σ) : Prog (σ × UInt32) := do
  let status ← read .intsts
  let enabled ← read .inten
  let pending := status &&& enabled
  let s ← drainWith pending deliver Channel.all s
  let acked := ackBits pending
  if acked ≠ 0 then write .intsts acked
  return (s, acked >>> ackShift)

/-- `handleInterruptWith` for those who only want the results of handing over, in order. -/
def handleInterrupt (deliver : Channel → Message → Prog β) : Prog (List β × UInt32) :=
  handleInterruptWith (collecting deliver) []

/-!
### Results in order

What was collected before stays in front.
-/

variable (pending : UInt32) (deliver : Channel → Message → Prog β)

theorem handleInterrupt_eq :
    handleInterrupt deliver = do
      let status ← read .intsts
      let enabled ← read .inten
      let delivered ← drain (status &&& enabled) deliver Channel.all
      if ackBits (status &&& enabled) ≠ 0 then write .intsts (ackBits (status &&& enabled))
      return (delivered, ackBits (status &&& enabled) >>> ackShift) := rfl

theorem drainWith_collecting (channels : List Channel) (before : List β) :
    drainWith pending (collecting deliver) channels before =
      (drain pending deliver channels).bind fun delivered => .done (before ++ delivered) := by
  induction channels generalizing before with
  | nil => simp [drain, drainWith]
  | cons ch rest ih =>
    simp only [drain, drainWith]
    split
    · simp only [Program.bind_eq, Program.bind_assoc]
      refine congrArg (Program.bind _) (funext fun got => ?_)
      cases got with
      | none => exact ih before
      | some msg =>
        simp only [collecting, Program.bind_eq, Program.bind_assoc, Program.pure_eq,
          Program.done_bind, ih, List.append_assoc, List.nil_append]
    · exact ih before

@[simp] theorem drain_nil : drain pending deliver [] = .done [] := rfl

theorem drain_cons (ch : Channel) (rest : List Channel) :
    drain pending deliver (ch :: rest) =
      if pending &&& ch.mask ≠ 0 then do
        match ← recv ch with
        | some msg =>
          let b ← deliver ch msg
          return b :: (← drain pending deliver rest)
        | none => drain pending deliver rest
      else drain pending deliver rest := by
  rw [drain, drainWith]
  split
  · simp only [Program.bind_eq]
    refine congrArg (Program.bind _) (funext fun got => ?_)
    cases got with
    | none => rfl
    | some msg =>
      simp only [collecting, drainWith_collecting, Program.bind_eq, Program.pure_eq,
        Program.bind_assoc, Program.done_bind, List.nil_append, List.singleton_append]
  · rfl

end Drain

end Intercore.Mailbox
