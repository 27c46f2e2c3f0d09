import Intercore.Proofs.Contract
import Intercore.Proofs.Semaphore.Block
import Intercore.Semaphore.Lock
import Mathlib.Data.Finset.Card
import Mathlib.Data.Fintype.Basic

/-!
# Holders of channels

Without its registers the block says for each channel who holds it. Claiming, releasing and being
refused are one and the same write there, told apart by what was read before. Here each operation, done
with nothing else in between, is shown to do to the holders what it says.

A guard can be let go of at any time: when there are other guards for the same channel and key, when
somebody else has the channel by then, and after a reset.
-/

namespace Intercore.Semaphore

/-- What is done with the block, each time with nothing else in between. -/
inductive Operation
  | tryLock (side : Side) (ch : Channel) (key : Key)
  | lockBounded (side : Side) (ch : Channel) (key : Key) (attempts : Nat)
  | unlock (side : Side) (ch : Channel) (key : Key)
  /-- Lets go of a guard. -/
  | drop (side : Side) (g : Guard)
  | reset
  deriving DecidableEq, Repr

namespace Operation

abbrev Answer : Operation → Type
  | tryLock _ _ _ => Bool
  | lockBounded _ _ _ _ => Except LockError Guard
  | unlock _ _ _ | drop _ _ => Except LockError Unit
  | reset => Unit

instance : Intercore.Request Operation := ⟨Answer⟩

/-- Whether an operation is about a channel. -/
def Concerns (c : Channel) : Operation → Prop
  | tryLock _ ch _ | lockBounded _ ch _ _ | unlock _ ch _ => ch = c
  | drop _ g => g.channel = c
  | reset => True

/-- Whether an operation was refused. -/
def Failed : (op : Operation) → Intercore.Request.Answer op → Prop
  | tryLock _ _ _, r => r = false
  | lockBounded _ _ _ _, .error _ | unlock _ _ _, .error _ | drop _ _, .error _ => True
  | _, _ => False

end Operation

/-!
### The holders
-/

/-- Who holds each channel. -/
abbrev Holders := Channel → Option Key

namespace Holders

def free : Holders := fun _ => none

/-- The channel is free, or the key has it already. -/
def Admits (m : Holders) (ch : Channel) (key : Key) : Prop := m ch = none ∨ m ch = some key

instance (m : Holders) (ch : Channel) (key : Key) : Decidable (m.Admits ch key) :=
  inferInstanceAs (Decidable (_ ∨ _))

def release (m : Holders) (ch : Channel) (key : Key) : Except LockError Unit × Holders :=
  if m ch = some key then (.ok (), Function.update m ch none) else (.error (.notHolder (m ch)), m)

/-- What an operation is answered, and who holds the channels then. -/
def step : (op : Operation) → Holders → Intercore.Request.Answer op × Holders
  | .tryLock _ ch key, m =>
    if m.Admits ch key then (true, Function.update m ch (some key)) else (false, m)
  | .lockBounded _ ch key attempts, m =>
    if 0 < attempts ∧ m.Admits ch key then (.ok ⟨ch, key⟩, Function.update m ch (some key))
    else (.error (.timeout (m ch)), m)
  | .unlock _ ch key, m => m.release ch key
  | .drop _ g, m => m.release g.channel g.key
  | .reset, _ => ((), free)

/-- On how many channels the holders differ. -/
def changes (m m' : Holders) : Nat := (Finset.univ.filter fun ch => m ch ≠ m' ch).card

/-- The holders, and how often one of them changed since the last reset. -/
def handler : Handler Operation (Holders × Nat) Fault := fun op s =>
  let m := (s.1.step op).2
  (.ok (s.1.step op).1, m, if op = .reset then 0 else s.2 + s.1.changes m)

@[simp] lemma changes_self (m : Holders) : m.changes m = 0 := by simp [changes]

lemma changes_update (m : Holders) (ch : Channel) (v : Option Key) :
    m.changes (Function.update m ch v) = if m ch = v then 0 else 1 := by
  by_cases h : m ch = v
  · subst h
    simp
  · have hone : (Finset.univ.filter fun c => m c ≠ Function.update m ch v c) = {ch} := by
      ext c
      by_cases hc : c = ch
      · subst hc
        simpa using h
      · simp [hc]
    rw [changes, hone, if_neg h, Finset.card_singleton]

/-- No operation affects the holder of a channel that it is not about. -/
lemma step_of_not_concerns {op : Operation} {c : Channel} (h : ¬ op.Concerns c) (m : Holders) :
    (m.step op).2 c = m c := by
  cases op with
  | reset => exact absurd trivial h
  | tryLock _ _ _ | lockBounded _ _ _ _ | unlock _ _ _ | drop _ _ =>
    simp only [step, release]
    split
    · exact Function.update_of_ne (Ne.symm h) _ _
    · rfl

end Holders

/-!
### The operations on the block
-/

lemma Key.ofRaw?_eq_none_iff {raw : UInt8} : Key.ofRaw? raw = none ↔ raw = 0 := by
  simp [Key.ofRaw?]

lemma Key.ofRaw?_eq_some_iff {raw : UInt8} {key : Key} :
    Key.ofRaw? raw = some key ↔ raw = key.raw := by
  obtain ⟨raw', hne⟩ := key
  rw [Key.ofRaw?]
  split
  case isTrue h => simp
  case isFalse h =>
    simp only [reduceCtorEq, false_iff]
    rintro rfl
    exact h hne

namespace Machine

variable {s : Machine} {side : Side} {ch : Channel} {key : Key}

/-- Who holds the channels by their claim registers. -/
def holders (s : Machine) : Holders := fun ch => Key.ofRaw? (s.block.claimed ch)

/-- A key is written to the claim register of a channel. -/
def put (s : Machine) (side : Side) (ch : Channel) (key : Key) : Machine :=
  { s with block := (s.block.writeSem side ch.index key.raw).2 }

/-- Does an operation, from its first access to its last. -/
def operate : Handler Operation Machine Fault
  | .tryLock side ch key, s => (tryLock ch key).run (handler side) s
  | .lockBounded side ch key attempts, s => (lockBounded ch key attempts).run (handler side) s
  | .unlock side ch key, s => (unlock ch key).run (handler side) s
  | .drop side g, s => g.release.run (handler side) s
  | .reset, s => (.ok (), { s with block := .fresh })

lemma run_readKey : (readKey ch).run (handler side) s = (.ok (s.block.claimed ch), s) := by
  have hread : Block.handler side (.read (.sem ch.index)) s.block =
      (.ok (s.block.claimed ch).toUInt32, s.block) := by
    rw [Block.handler, dif_pos (index_toNat_lt ch)]
    simp [Block.claimed]
  simp only [readKey, read, Program.request, Program.bind_eq, Program.pure_eq, Program.ask_bind,
    Program.done_bind, Program.run, handler, hread, UInt8.toUInt8_toUInt32]

lemma run_writeKey : (writeKey ch key).run (handler side) s = (.ok (), s.put side ch key) := by
  have hch := index_toNat_lt ch
  simp [writeKey, write, Program.request, Program.run, handler, Block.handler, put,
    Block.writeSem_of_lt _ _ _ hch]

lemma claimed_put (c : Channel) : (s.put side ch key).block.claimed c =
    if c = ch then rewritten key.raw (s.block.claimed c) else s.block.claimed c := by
  rw [put, Block.writeSem_of_lt _ _ _ (index_toNat_lt ch), Block.claimed, Block.claim_sem]
  simp [Block.claimed, Fin.ext_iff, eq_comm]

lemma writes_put : (s.put side ch key).block.writes = s.block.writes + 1 := by
  rw [put, Block.writeSem_of_lt _ _ _ (index_toNat_lt ch)]
  simp only [Block.claim]
  split_ifs <;> rfl

lemma holders_put_of_free (h : s.holders ch = none) :
    (s.put side ch key).holders = Function.update s.holders ch (some key) := by
  funext c
  rw [holders, claimed_put, Function.update_apply]
  split
  case isTrue hc =>
    have hzero : s.block.claimed ch = 0 := Key.ofRaw?_eq_none_iff.mp h
    rw [hc, hzero, Key.ofRaw?_eq_some_iff]
    simp [rewritten, key.ne_zero]
  case isFalse => rfl

lemma holders_put_of_held (h : s.holders ch = some key) :
    (s.put side ch key).holders = Function.update s.holders ch none := by
  funext c
  rw [holders, claimed_put, Function.update_apply]
  split
  case isTrue hc =>
    have hheld : s.block.claimed ch = key.raw := Key.ofRaw?_eq_some_iff.mp h
    rw [hc, hheld, rewritten_self key.ne_zero, Key.ofRaw?_eq_none_iff]
  case isFalse => rfl

/-- What becomes of the machine when a lock succeeds. A key that has the channel already is not written. -/
def lock (s : Machine) (side : Side) (ch : Channel) (key : Key) : Machine :=
  if s.holders ch = none then s.put side ch key else s

lemma run_tryLock : (tryLock ch key).run (handler side) s =
    if s.holders.Admits ch key then (.ok true, s.lock side ch key) else (.ok false, s) := by
  have hfree : s.holders ch = none ↔ s.block.claimed ch = 0 := Key.ofRaw?_eq_none_iff
  have hheld : s.holders ch = some key ↔ s.block.claimed ch = key.raw := Key.ofRaw?_eq_some_iff
  simp only [tryLock, Program.bind_eq, Program.pure_eq, Program.run_bind, run_readKey]
  by_cases hown : s.block.claimed ch = key.raw
  · have hadmits : s.holders.Admits ch key := .inr (hheld.mpr hown)
    have hne : s.holders ch ≠ none := by simp [hheld.mpr hown]
    rw [if_pos hown, if_pos hadmits, lock, if_neg hne, Program.run_done]
  by_cases hzero : s.block.claimed ch = 0
  · have hadmits : s.holders.Admits ch key := .inl (hfree.mpr hzero)
    -- the key is read back as it was written, so the attempt succeeds
    have hback : (s.put side ch key).block.claimed ch = key.raw := by
      rw [claimed_put, if_pos rfl, hzero]
      simp [rewritten, key.ne_zero]
    rw [if_neg hown, if_neg (by simpa using hzero), if_pos hadmits, lock,
      if_pos (hfree.mpr hzero)]
    simp only [Program.run_bind, run_writeKey, run_readKey, Program.run_done, hback, decide_true]
  · have hadmits : ¬ s.holders.Admits ch key := by
      rw [Holders.Admits, hfree, hheld]
      exact not_or.mpr ⟨hzero, hown⟩
    rw [if_neg hown, if_pos hzero, if_neg hadmits, Program.run_done]

lemma run_lockWithin (attempts : Nat) : (lockWithin ch key attempts).run (handler side) s =
    if 0 < attempts ∧ s.holders.Admits ch key then (.ok true, s.lock side ch key)
    else (.ok false, s) := by
  have hpause : pause.run (handler side) s = (.ok (), s) := rfl
  induction attempts with
  | zero => simp [lockWithin]
  | succ attempts ih =>
    rw [lockWithin, Program.bind_eq, Program.run_bind, run_tryLock]
    by_cases hadmits : s.holders.Admits ch key
    · simp [hadmits]
    · simp only [hadmits, and_false, if_false, Bool.false_eq_true,
        Program.bind_eq, Program.run_bind, hpause] at ih ⊢
      exact ih

lemma run_lockBounded (attempts : Nat) : (lockBounded ch key attempts).run (handler side) s =
    if 0 < attempts ∧ s.holders.Admits ch key then (.ok (.ok ⟨ch, key⟩), s.lock side ch key)
    else (.ok (.error (.timeout (s.holders ch))), s) := by
  rw [lockBounded, Program.bind_eq, Program.run_bind, run_lockWithin]
  by_cases hadmits : 0 < attempts ∧ s.holders.Admits ch key
  · rw [if_pos hadmits, if_pos hadmits]
    rfl
  · rw [if_neg hadmits, if_neg hadmits]
    simp only [Bool.false_eq_true, if_false, holder, Program.bind_eq, Program.pure_eq,
      Program.run_bind, run_readKey, Program.run_done]
    rfl

lemma run_unlock : (unlock ch key).run (handler side) s =
    if s.holders ch = some key then (.ok (.ok ()), s.put side ch key)
    else (.ok (.error (.notHolder (s.holders ch))), s) := by
  have hheld : s.holders ch = some key ↔ s.block.claimed ch = key.raw := Key.ofRaw?_eq_some_iff
  simp only [unlock, Program.bind_eq, Program.pure_eq, Program.run_bind, run_readKey, hheld]
  by_cases hown : s.block.claimed ch = key.raw
  · rw [if_neg (not_not.mpr hown), if_pos hown, Program.run_bind, run_writeKey]
    rfl
  · rw [if_pos hown, if_neg hown]
    rfl

/-!
### Operations as steps
-/

lemma holders_lock (h : s.holders.Admits ch key) :
    (s.lock side ch key).holders = Function.update s.holders ch (some key) := by
  rw [lock]
  split
  case isTrue hfree => exact holders_put_of_free hfree
  case isFalse hfree =>
    have hheld : s.holders ch = some key := h.resolve_left hfree
    rw [← hheld, Function.update_eq_self]

lemma writes_lock (h : s.holders.Admits ch key) : (s.lock side ch key).block.writes =
    s.block.writes + s.holders.changes (Function.update s.holders ch (some key)) := by
  rw [lock, Holders.changes_update]
  split
  case isTrue hfree => simp [writes_put, hfree]
  case isFalse hfree => simp [h.resolve_left hfree]

/-- An operation is answered as the holders answer it, and makes of the block what it makes of the
holders. -/
structure Follows (s : Machine) (op : Operation) (r : Intercore.Request.Answer op) (s' : Machine) :
    Prop where
  run : s.operate op = (.ok r, s')
  step : s.holders.step op = (r, s'.holders)
  failed : op.Failed r → s' = s
  writes : s'.block.writes =
    if op = .reset then 0 else s.block.writes + s.holders.changes s'.holders

lemma exists_follows_tryLock : ∃ r s', s.Follows (.tryLock side ch key) r s' := by
  have hrun : (tryLock ch key).run (handler side) s = _ := run_tryLock
  by_cases h : s.holders.Admits ch key
  · rw [if_pos h] at hrun
    refine ⟨true, s.lock side ch key, hrun, ?_, nofun, ?_⟩
    · rw [Holders.step, if_pos h, holders_lock h]
    · rw [if_neg nofun, holders_lock h, writes_lock h]
  · rw [if_neg h] at hrun
    refine ⟨false, s, hrun, ?_, fun _ => rfl, by simp⟩
    rw [Holders.step, if_neg h]

lemma exists_follows_lockBounded {attempts : Nat} :
    ∃ r s', s.Follows (.lockBounded side ch key attempts) r s' := by
  have hrun : (lockBounded ch key attempts).run (handler side) s = _ := run_lockBounded attempts
  by_cases h : 0 < attempts ∧ s.holders.Admits ch key
  · rw [if_pos h] at hrun
    refine ⟨.ok ⟨ch, key⟩, s.lock side ch key, hrun, ?_, nofun, ?_⟩
    · rw [Holders.step, if_pos h, holders_lock h.2]
    · rw [if_neg nofun, holders_lock h.2, writes_lock h.2]
  · rw [if_neg h] at hrun
    refine ⟨.error (.timeout (s.holders ch)), s, hrun, ?_, fun _ => rfl, by simp⟩
    rw [Holders.step, if_neg h]

lemma exists_follows_unlock : ∃ r s', s.Follows (.unlock side ch key) r s' := by
  have hrun : (unlock ch key).run (handler side) s = _ := run_unlock
  by_cases h : s.holders ch = some key
  · rw [if_pos h] at hrun
    refine ⟨.ok (), s.put side ch key, hrun, ?_, nofun, ?_⟩
    · rw [Holders.step, Holders.release, if_pos h, holders_put_of_held h]
    · rw [if_neg nofun, holders_put_of_held h, Holders.changes_update, writes_put, h]
      rfl
  · rw [if_neg h] at hrun
    refine ⟨.error (.notHolder (s.holders ch)), s, hrun, ?_, fun _ => rfl, by simp⟩
    rw [Holders.step, Holders.release, if_neg h]

lemma exists_follows (s : Machine) (op : Operation) : ∃ r s', s.Follows op r s' := by
  cases op with
  | tryLock side ch key => exact exists_follows_tryLock
  | lockBounded side ch key attempts => exact exists_follows_lockBounded
  | unlock side ch key => exact exists_follows_unlock
  | drop side g =>
    -- to let go of a guard is to unlock its channel with its key
    obtain ⟨r, s', h⟩ : ∃ r s', s.Follows (.unlock side g.channel g.key) r s' :=
      exists_follows_unlock
    refine ⟨r, s', h.run, h.step, ?_, by simpa using h.writes⟩
    intro hfailed
    apply h.failed
    cases r <;> exact hfailed
  | reset =>
    refine ⟨(), { s with block := .fresh }, rfl, ?_, nofun, rfl⟩
    have hfree : ({ s with block := .fresh } : Machine).holders = Holders.free := by
      funext c
      simp [holders, Block.claimed, Block.fresh, Holders.free, Key.ofRaw?]
    rw [Holders.step, hfree]

end Machine

/-- No program of operations, from whatever state of the block, can tell it from a holder for each
channel. As many writes are made to claim registers as holders change, both counted since the last
reset. From then on every operation is answered as the holders answer it, does to the block what it
does to them, and affects the holder of no channel but its own. One that is refused changes nothing. -/
theorem refines_holders {α : Type} (p : Program Operation α) (s₀ : Machine) :
    ∃ a s, p.run Machine.operate s₀ = (.ok a, s) ∧
      p.run Holders.handler (s₀.holders, s₀.block.writes) =
        (.ok a, s.holders, s.block.writes) ∧
      ∀ op, ∃ r s', s.operate op = (.ok r, s') ∧ s.holders.step op = (r, s'.holders) ∧
        (op.Failed r → s' = s) ∧ ∀ ch, ¬ op.Concerns ch → s'.holders ch = s.holders ch := by
  have hstep : ∀ op (s : Machine) (b : Holders × Nat), (s.holders, s.block.writes) = b →
      ∃ r s' b', s.operate op = (.ok r, s') ∧ Holders.handler op b = (.ok r, b') ∧
        (s'.holders, s'.block.writes) = b' := by
    rintro op s _ rfl
    obtain ⟨r, s', h⟩ := s.exists_follows op
    refine ⟨r, s', _, h.run, ?_, rfl⟩
    rw [Holders.handler, h.step, h.writes]
  obtain ⟨a, s, _, hrun, hholders, rfl⟩ := p.run_of_simulation hstep rfl
  refine ⟨a, s, hrun, hholders, ?_⟩
  intro op
  obtain ⟨r, s', h⟩ := s.exists_follows op
  refine ⟨r, s', h.run, h.step, h.failed, ?_⟩
  intro ch hch
  have hother := Holders.step_of_not_concerns hch s.holders
  rwa [h.step] at hother

end Intercore.Semaphore
