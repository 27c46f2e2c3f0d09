import Intercore.Mailbox.Controller
import Intercore.Mailbox.Transfer
import Intercore.Proofs.Bit
import Intercore.Semaphore.Block
import Intercore.Semaphore.Lock

/-!
# Interrupts that are enabled under interrupts

The calls that enable and disable interrupts read a register, change one bit, and write it back. An
interrupt handler that makes such a call too may run between the read and the write.

What the handler has written then is lost, unless that does not matter: it changed the same bit, or
changed nothing.
-/

namespace Intercore

/-!
### Interrupted programs
-/

namespace Program

variable {Q α β σ ε : Type} [Request Q]

/-- A program that is interrupted behind its first `n` requests, or at its end if it makes fewer.
The handler runs to its end before the program goes on. -/
def interruptedBy (handler : Program Q β) : Nat → Program Q α → Program Q α
  | 0, p => handler.bind fun _ => p
  | _ + 1, done a => handler.bind fun _ => done a
  | n + 1, ask q next => ask q fun r => interruptedBy handler n (next r)

/-- A program that makes a single request. -/
def IsAccess (p : Program Q α) : Prop :=
  ∃ (q : Q) (f : Request.Answer q → α), p = ask q fun r => done (f r)

variable {handler : Program Q β}

lemma interruptedBy_zero (p : Program Q α) :
    interruptedBy handler 0 p = handler.bind fun _ => p := rfl

lemma interruptedBy_done (n : Nat) (a : α) :
    interruptedBy handler n (done a) = handler.bind fun _ => done a := by
  cases n <;> rfl

lemma IsAccess.interruptedBy_succ {p : Program Q α} (hp : p.IsAccess) {γ : Type}
    (k : α → Program Q γ) (n : Nat) :
    interruptedBy handler (n + 1) (p.bind k) = p.bind fun a => interruptedBy handler n (k a) := by
  obtain ⟨q, f, rfl⟩ := hp
  rfl

/-- A program `r` does what `p` and `q` do if they run one behind the other, in one order or the
other. -/
def RunsInTurn (h : Handler Q σ ε) (p q r : Program Q Unit) (s : σ) : Prop :=
  r.run h s = (p.bind fun _ => q).run h s ∨ r.run h s = (q.bind fun _ => p).run h s

end Program

/-!
### Updates of a bit
-/

/-- A bit is set or cleared. -/
structure Update where
  bit : Fin 32
  value : Bool
  deriving DecidableEq, Repr

namespace Update

/-- The word with the bit as it is to be. -/
def apply (u : Update) (w : UInt32) : UInt32 :=
  let mask := 1 <<< UInt32.ofNat u.bit.val
  if u.value then w ||| mask else w &&& ~~~mask

variable {u u' : Update} {w : UInt32}

@[simp] lemma hasBit_apply (i : Fin 32) :
    hasBit i (u.apply w) = if i = u.bit then u.value else hasBit i w := by
  rw [apply]
  cases u.value <;> by_cases hi : i = u.bit <;> simp [hi]

lemma apply_eq_self_iff : u.apply w = w ↔ hasBit u.bit w = u.value := by
  rw [ext_hasBit]
  constructor
  · intro h
    simpa using (h u.bit).symm
  · intro h i
    rw [hasBit_apply]
    split
    case isTrue hi => rw [hi, h]
    case isFalse => rfl

lemma apply_apply_of_bit_eq (h : u.bit = u'.bit) : u.apply (u'.apply w) = u.apply w := by
  simp only [ext_hasBit, hasBit_apply, h]
  intro i
  split <;> rfl

/-- One update alone is as good as it and another in some order exactly if the other has nothing to
say: they agree on the bit, or the bit is as the other wants it. -/
lemma alone_iff : u.apply w = u'.apply (u.apply w) ∨ u.apply w = u.apply (u'.apply w) ↔
    u.bit = u'.bit ∨ hasBit u'.bit w = u'.value := by
  constructor
  · intro h
    by_cases hbit : u'.bit = u.bit
    · exact .inl hbit.symm
    · right
      rcases h with h | h
      · simpa [hbit] using congrArg (hasBit u'.bit) h
      · simpa [hbit] using congrArg (hasBit u'.bit) h
  · rintro (hbit | hvalue)
    · exact .inr (apply_apply_of_bit_eq hbit).symm
    · rw [apply_eq_self_iff.mpr hvalue]
      exact .inr rfl

end Update

/-!
### Registers of enabled interrupts
-/

/-- The register of enabled interrupts as a driver reaches it. -/
structure Enables (Q σ ε : Type) [Request Q] where
  read : Program Q UInt32
  write : UInt32 → Program Q Unit
  handler : Handler Q σ ε
  value : σ → UInt32
  /-- The state with another value in the register. -/
  withValue : UInt32 → σ → σ
  isAccess_read : read.IsAccess
  isAccess_write : ∀ w, (write w).IsAccess
  run_read : ∀ s, read.run handler s = (.ok (value s), s)
  run_write : ∀ w s, (write w).run handler s = (.ok (), withValue w s)
  value_withValue : ∀ w s, value (withValue w s) = w
  withValue_withValue : ∀ w w' s, withValue w (withValue w' s) = withValue w s

namespace Enables

variable {Q σ ε : Type} [Request Q] (e : Enables Q σ ε)

/-- Reads the register and writes it back with one bit changed. -/
def update (u : Update) : Program Q Unit := e.read.bind fun w => e.write (u.apply w)

lemma withValue_inj {w w' : UInt32} {s : σ} : e.withValue w s = e.withValue w' s ↔ w = w' := by
  constructor
  · intro h
    rw [← e.value_withValue w s, h, e.value_withValue]
  · rintro rfl
    rfl

lemma run_update (u : Update) (s : σ) :
    (e.update u).run e.handler s = (.ok (), e.withValue (u.apply (e.value s)) s) := by
  simp only [update, Program.run_bind, e.run_read, e.run_write]

lemma run_two (u u' : Update) (s : σ) :
    ((e.update u).bind fun _ => e.update u').run e.handler s =
      (.ok (), e.withValue (u'.apply (u.apply (e.value s))) s) := by
  simp only [Program.run_bind, run_update, e.value_withValue, e.withValue_withValue]

lemma interruptedBy_update (handler : Program Q Unit) (n : Nat) (u : Update) :
    Program.interruptedBy handler (n + 1) (e.update u) =
      e.read.bind fun w => Program.interruptedBy handler n (e.write (u.apply w)) :=
  e.isAccess_read.interruptedBy_succ _ _

/-- The second update counts for nothing if it comes between the read and the write of the first. -/
lemma run_interruptedBy_one (u u' : Update) (s : σ) :
    (Program.interruptedBy (e.update u') 1 (e.update u)).run e.handler s =
      (.ok (), e.withValue (u.apply (e.value s)) s) := by
  simp only [interruptedBy_update, Program.interruptedBy_zero, Program.run_bind, e.run_read,
    run_update, e.run_write, e.withValue_withValue]

lemma interruptedBy_of_two_le (handler : Program Q Unit) (n : Nat) (u : Update) :
    Program.interruptedBy handler (n + 2) (e.update u) = (e.update u).bind fun _ => handler := by
  have hwrite (w : UInt32) : Program.interruptedBy handler (n + 1) (e.write w) =
      (e.write w).bind fun _ => handler := by
    -- Nothing is left to do behind the write, so the handler runs at the very end.
    conv_lhs => rw [← (e.write w).bind_done]
    simp only [(e.isAccess_write w).interruptedBy_succ, Program.interruptedBy_done]
    exact congrArg _ (funext fun _ => handler.bind_done)
  rw [interruptedBy_update, update, Program.bind_assoc]
  simp only [hwrite]

lemma runsInTurn_iff (u u' : Update) (n : Nat) (s : σ) :
    Program.RunsInTurn e.handler (e.update u) (e.update u')
        (Program.interruptedBy (e.update u') n (e.update u)) s ↔
      n ≠ 1 ∨ u.bit = u'.bit ∨ hasBit u'.bit (e.value s) = u'.value := by
  match n with
  | 0 => simp [Program.RunsInTurn, Program.interruptedBy_zero]
  | 1 =>
    simp only [Program.RunsInTurn, run_interruptedBy_one, run_two, Prod.mk.injEq, true_and,
      e.withValue_inj, Update.alone_iff, ne_eq, not_true_eq_false, false_or]
  | n + 2 => simp [Program.RunsInTurn, interruptedBy_of_two_le]

end Enables

/-!
### The two drivers
-/

lemma Both.set_set {α : Type} (b : Both α) (side : Side) (a a' : α) :
    (b.set side a').set side a = b.set side a := by
  cases side <;> rfl

namespace Semaphore

/-- The calls that enable and disable interrupts. -/
inductive Toggle
  | enable (ch : Channel)
  | disable (ch : Channel)
  deriving DecidableEq, Repr

namespace Toggle

def program : Toggle → Prog Unit
  | enable ch => enableInt ch
  | disable ch => disableInt ch

def update : Toggle → Update
  | enable ch => ⟨ch.castLE (by decide), true⟩
  | disable ch => ⟨ch.castLE (by decide), false⟩

end Toggle

def enables (side : Side) : Enables Request Machine Fault where
  read := read .inten
  write := write .inten
  handler := Machine.handler side
  value s := s.block.inten.get side
  withValue w s := { s with block := { s.block with inten := s.block.inten.set side w } }
  isAccess_read := ⟨_, _, rfl⟩
  isAccess_write _ := ⟨_, _, rfl⟩
  run_read _ := rfl
  run_write _ _ := rfl
  value_withValue _ _ := Both.get_set_self _ _ _
  withValue_withValue _ _ _ := by simp only [Both.set_set]

lemma Toggle.program_eq (side : Side) (t : Toggle) :
    t.program = (enables side).update t.update := by
  cases t <;> rfl

end Semaphore

namespace Mailbox

/-- The calls that enable and disable interrupts. -/
inductive Toggle
  | enableRx (ch : Channel)
  | disableRx (ch : Channel)
  | enableTx (ch : Channel)
  | disableTx (ch : Channel)
  deriving DecidableEq, Repr

namespace Toggle

def program : Toggle → Prog Unit
  | enableRx ch => enableRxInt ch
  | disableRx ch => disableRxInt ch
  | enableTx ch => enableTxInt ch
  | disableTx ch => disableTxInt ch

def update : Toggle → Update
  | enableRx ch => ⟨ch.castLE (by decide), true⟩
  | disableRx ch => ⟨ch.castLE (by decide), false⟩
  | enableTx ch => ⟨(ch.addNat 16).castLE (by decide), true⟩
  | disableTx ch => ⟨(ch.addNat 16).castLE (by decide), false⟩

end Toggle

def enables (side : Side) : Enables (Access Register) Controller Fault where
  read := read .inten
  write := write .inten
  handler := Controller.handler side
  value c := c.inten.get side
  withValue w c := { c with inten := c.inten.set side w }
  isAccess_read := ⟨_, _, rfl⟩
  isAccess_write _ := ⟨_, _, rfl⟩
  run_read _ := rfl
  run_write _ _ := rfl
  value_withValue _ _ := Both.get_set_self _ _ _
  withValue_withValue _ _ _ := by simp only [Both.set_set]

lemma Channel.ackMask_eq (ch : Channel) : ch.ackMask = 1 <<< UInt32.ofNat (ch.val + 16) := by
  revert ch
  decide

lemma Toggle.program_eq (side : Side) (t : Toggle) :
    t.program = (enables side).update t.update := by
  cases t
  case enableRx | disableRx => rfl
  case enableTx ch => simp only [program, enableTxInt, enable, Channel.ackMask_eq]; rfl
  case disableTx ch => simp only [program, disableTxInt, disable, Channel.ackMask_eq]; rfl

end Mailbox

open Program in
/-- One call interrupts another on the same core. If that is between the read and the write of the
first, what the second has written is lost. So the calls have the outcome of the two in some order
exactly if the second comes elsewhere, or changes the same bit, or finds its bit as it is to be. -/
theorem updates_under_interrupts (side : Side) :
    (∀ (first second : Semaphore.Toggle) (s : Semaphore.Machine),
      (interruptedBy second.program 1 first.program).run (Semaphore.Machine.handler side) s =
        (.ok (), (Semaphore.enables side).withValue
          (first.update.apply (s.block.inten.get side)) s) ∧
      ∀ n, RunsInTurn (Semaphore.Machine.handler side) first.program second.program
          (interruptedBy second.program n first.program) s ↔
        n ≠ 1 ∨ first.update.bit = second.update.bit ∨
          hasBit second.update.bit (s.block.inten.get side) = second.update.value) ∧
    ∀ (first second : Mailbox.Toggle) (c : Mailbox.Controller),
      (interruptedBy second.program 1 first.program).run (Mailbox.Controller.handler side) c =
        (.ok (), (Mailbox.enables side).withValue (first.update.apply (c.inten.get side)) c) ∧
      ∀ n, RunsInTurn (Mailbox.Controller.handler side) first.program second.program
          (interruptedBy second.program n first.program) c ↔
        n ≠ 1 ∨ first.update.bit = second.update.bit ∨
          hasBit second.update.bit (c.inten.get side) = second.update.value := by
  constructor
  · intro first second s
    simp only [Semaphore.Toggle.program_eq side]
    exact ⟨(Semaphore.enables side).run_interruptedBy_one _ _ s,
      fun n => (Semaphore.enables side).runsInTurn_iff _ _ n s⟩
  · intro first second c
    simp only [Mailbox.Toggle.program_eq side]
    exact ⟨(Mailbox.enables side).run_interruptedBy_one _ _ c,
      fun n => (Mailbox.enables side).runsInTurn_iff _ _ n c⟩

open Program in
/-- An interrupt is enabled while another is being enabled, and is disabled in the end. -/
theorem enable_lost :
    (let h := Semaphore.Machine.handler .app
      let first := Semaphore.enableInt ⟨0, by decide⟩
      let second := Semaphore.enableInt ⟨1, by decide⟩
      let inten := fun p : Semaphore.Prog Unit =>
        (p.run h Semaphore.Machine.fresh).2.block.inten.app
      inten (interruptedBy second 1 first) = 1 ∧ inten (first.bind fun _ => second) = 3 ∧
        inten (second.bind fun _ => first) = 3) ∧
    let h := Mailbox.Controller.handler .app
    let first := Mailbox.enableRxInt ⟨0, by decide⟩
    let second := Mailbox.enableTxInt ⟨0, by decide⟩
    let inten := fun p : Mailbox.Prog Unit => (p.run h Mailbox.Controller.fresh).2.inten.app
    inten (interruptedBy second 1 first) = 1 ∧ inten (first.bind fun _ => second) = 0x10001 ∧
      inten (second.bind fun _ => first) = 0x10001 :=
  ⟨⟨rfl, rfl, rfl⟩, rfl, rfl, rfl⟩

end Intercore
