import Intercore.Proofs.Interleaving
import Intercore.Proofs.Semaphore.Block
import Intercore.Semaphore.Lock
import Mathlib.Data.Finset.Basic

/-!
# Contention for semaphore channels

Any number of contenders, each with a key of its own and on either core, claim and release
channels of one block. Their accesses to the block fall between each other in any order.
-/

namespace Intercore.Semaphore

/-- What a contender may do. -/
inductive Call
  | tryLock (ch : Channel)
  /-- Waits until it has the channel. A run is finite, so it shows some number of rounds of the
  wait; without success in any of them the contender is still waiting, and may make other calls
  while it pauses. -/
  | lockWith (ch : Channel) (rounds : Nat)
  | lockBounded (ch : Channel) (attempts : Nat)
  | unlock (ch : Channel)
  /-- Lets go of a guard for the channel. -/
  | drop (ch : Channel)
  deriving DecidableEq, Repr

namespace Call

abbrev Answer : Call → Type
  | tryLock _ => Bool
  | lockWith _ _ => Bool
  | lockBounded _ _ => Except LockError Guard
  | unlock _ => Except LockError Unit
  | drop _ => Except LockError Unit

instance : Intercore.Request Call := ⟨Answer⟩

/-- The program of a call by the contender with this key. -/
def program (key : Key) : (k : Call) → Prog (Intercore.Request.Answer k)
  | tryLock ch => Semaphore.tryLock ch key
  | lockWith ch rounds => lockWithin ch key rounds
  | lockBounded ch attempts => Semaphore.lockBounded ch key attempts
  | unlock ch => Semaphore.unlock ch key
  | drop ch => Guard.release ⟨ch, key⟩

/-- The channel that a call locked, if it was successful. -/
def locked? : (k : Call) → Intercore.Request.Answer k → Option Channel
  | tryLock ch, true => some ch
  | lockWith ch _, true => some ch
  | lockBounded ch _, .ok _ => some ch
  | _, _ => none

/-- The channel that a call is to release. -/
def releases? : Call → Option Channel
  | unlock ch => some ch
  | drop ch => some ch
  | _ => none

def released : (k : Call) → Intercore.Request.Answer k → Bool
  | unlock _, .ok () => true
  | drop _, .ok () => true
  | _, _ => false

end Call

/-- Where a contender stands by what it has done. -/
structure Standing where
  /-- The channels it is inside: a lock of it succeeded, and it has not begun to release it. -/
  inside : Finset Channel := ∅
  /-- Whether it was inside the channel that its latest call is to release. -/
  leaving : Bool := false
  deriving DecidableEq

namespace Standing

def after (st : Standing) : Milestone Call → Standing
  | .begun k =>
    match k.releases? with
    | some ch => ⟨st.inside.erase ch, ch ∈ st.inside⟩
    | none => ⟨st.inside, false⟩
  | .returned k r =>
    match k.locked? r with
    | some ch => { st with inside := insert ch st.inside }
    | none => st

end Standing

/-- The contenders. No two have the same key. -/
structure Team (ι : Type) where
  side : ι → Side
  key : ι → Key
  key_injective : Function.Injective key

variable {ι : Type} [DecidableEq ι]

def Team.ensemble (team : Team ι) : Ensemble ι Call Request Machine Fault where
  handler i := Machine.handler (team.side i)
  program i := Call.program (team.key i)
  permits _ _ := true

/-- Where a contender stands after a history. -/
def standing (i : ι) (h : History ι Call) : Standing :=
  h.foldl (fun st e => if e.1 = i then st.after e.2 else st) {}

lemma standing_append (i j : ι) (h : History ι Call) (e : Milestone Call) :
    standing i (h ++ [(j, e)]) = if j = i then (standing i h).after e else standing i h := by
  simp [standing]

end Intercore.Semaphore
