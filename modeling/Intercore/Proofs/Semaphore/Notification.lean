import Intercore.Proofs.Bit
import Intercore.Proofs.Interleaving
import Intercore.Proofs.Semaphore.Block
import Intercore.Semaphore.Lock
import Mathlib.Tactic.ByContra

/-!
# Notifications

A core that listens for a channel is told of its releases by the other core: the block latches a status
bit if the listener has enabled the interrupt by then, and the interrupt handler clears the bit and
posts it to the signal. These are separate accesses, and the channel may be released again between
any two of them.

No release is lost, and none is made up.
-/

namespace Intercore.Semaphore

/-- The bit of a channel in the interrupt registers. -/
def Channel.bit (ch : Channel) : Fin 32 := ⟨ch.val, Nat.lt_trans ch.val_lt (by decide)⟩

/-- A request that is answered: it goes to a register that exists. -/
def Served : Request → Prop
  | .access (.read (.sem ch)) | .access (.write (.sem ch) _) => ch.toNat < 32
  | _ => True

/-- One core that listens for releases of a channel by the other one. -/
structure Listener where
  side : Side
  channel : Channel
  deriving DecidableEq, Repr

namespace Listener

/-!
### What matters to a listener
-/

inductive Notice
  /-- The channel was released, and the interrupt was enabled. -/
  | rung
  /-- The channel was released, and the interrupt was disabled. -/
  | missed
  /-- The listener cleared the status bit. -/
  | cleared
  /-- The bit was posted to the signal of the listener. -/
  | posted
  deriving DecidableEq, Repr

def latched (l : Listener) (m : Machine) : Bool := hasBit l.channel.bit (m.block.intsts.get l.side)

def enabled (l : Listener) (m : Machine) : Bool := hasBit l.channel.bit (m.block.inten.get l.side)

/-- Whether the bit of the channel is pending in the signal of the listener. -/
def signalled (l : Listener) (m : Machine) : Bool :=
  hasBit l.channel.bit (m.signals.get l.side).bits

def clears (l : Listener) (side : Side) : Request → Bool
  | .access (.write .intsts w) => side = l.side ∧ hasBit l.channel.bit w
  | _ => false

/-- Whether a request by one core puts the bit into the signal of the listener, even if nothing is
pending there before. -/
def posts (l : Listener) (side : Side) (m : Machine) (q : Request) : Bool :=
  l.signalled (Machine.handler side q { m with signals := m.signals.set l.side {} }).2

/-- Whether a request by one core takes the key out of the channel, and this is for the listener to
know. -/
def releases (l : Listener) (side : Side) (m : Machine) (q : Request) : Bool :=
  side = l.side.peer ∧ m.block.claimed l.channel ≠ 0 ∧
    (Machine.handler side q m).2.block.claimed l.channel = 0

/-- What a request by one core is to the listener. -/
def notice? (l : Listener) (side : Side) (m : Machine) (q : Request) : Option Notice :=
  if l.clears side q then some .cleared
  else if l.posts side m q then some .posted
  else if l.releases side m q then some (if l.enabled m then .rung else .missed)
  else none

/-- With the latest first: `a` has happened, and `b` has not happened since then. -/
def Since (b a : Notice) (notices : List Notice) : Prop :=
  ∃ after before, notices = after ++ a :: before ∧ b ∉ after

/-- With the latest first: when the status bit was cleared for the last time, it had rung since the
time before. -/
def Backed (notices : List Notice) : Prop :=
  ∃ after before, notices = after ++ .cleared :: before ∧ .cleared ∉ after ∧
    Since .cleared .rung before

/-!
### One context on each core
-/

inductive Call
  | tryLock (ch : Channel) (key : Key)
  | unlock (ch : Channel) (key : Key)
  | enableInt (ch : Channel)
  | disableInt (ch : Channel)
  | handleInterrupt
  deriving DecidableEq, Repr

namespace Call

abbrev Answer : Call → Type
  | tryLock _ _ => Bool
  | unlock _ _ => Except LockError Unit
  | enableInt _ | disableInt _ => Unit
  | handleInterrupt => UInt32

instance : Intercore.Request Call := ⟨Answer⟩

def program : (k : Call) → Prog (Intercore.Request.Answer k)
  | tryLock ch key => Semaphore.tryLock ch key
  | unlock ch key => Semaphore.unlock ch key
  | enableInt ch => Semaphore.enableInt ch
  | disableInt ch => Semaphore.disableInt ch
  | handleInterrupt => Semaphore.handleInterrupt

end Call

/-- The machine, with what has mattered to the listener so far, the latest first. -/
structure Watched where
  machine : Machine
  notices : List Notice
  deriving DecidableEq, Repr

def Watched.fresh : Watched := ⟨.fresh, []⟩

def handler (l : Listener) (side : Side) : Handler Request Watched Fault := fun q s =>
  match Machine.handler side q s.machine with
  | (r, machine) => (r, ⟨machine, (l.notice? side s.machine q).toList ++ s.notices⟩)

def ensemble (l : Listener) : Ensemble Side Call Request Watched Fault where
  handler := l.handler
  program _ := Call.program
  permits _ _ := true

end Listener

/-!
### What requests do to the status
-/

namespace Block

variable {b : Block} {side side' : Side} {ch : UInt8} {c : Channel} {j : Fin 32} {key : UInt8}

/-- A key is taken out of a channel by writing it again. -/
lemma claimed_writeSem_eq_zero_iff (hch : ch.toNat < 32) (hclaimed : b.claimed c ≠ 0) :
    (b.writeSem side ch key).2.claimed c = 0 ↔
      c.bit = ⟨ch.toNat, hch⟩ ∧ key ≠ 0 ∧ b.sem[ch.toNat] = key := by
  rw [writeSem_of_lt _ _ _ hch, claimed, claim_sem]
  by_cases hval : ch.toNat = c.val
  · have hbit : c.bit = ⟨ch.toNat, hch⟩ := Fin.ext hval.symm
    simp only [claimed, ← hval] at hclaimed
    simp only [hbit, ← hval, if_true, rewritten, true_and]
    grind
  · have hbit : c.bit ≠ ⟨ch.toNat, hch⟩ := fun h => hval (congrArg Fin.val h).symm
    simpa [hval, hbit, claimed] using hclaimed

/-- The status of one core is raised by what the other one takes out. -/
lemma hasBit_intsts_writeSem (hch : ch.toNat < 32) :
    hasBit j ((b.writeSem side ch key).2.intsts.get side') =
      (hasBit j (b.intsts.get side') ||
        decide (side' = side.peer ∧ j = ⟨ch.toNat, hch⟩ ∧ key ≠ 0 ∧ b.sem[ch.toNat] = key ∧
          hasBit j (b.inten.get side') = true)) := by
  rw [writeSem_of_lt _ _ _ hch]
  by_cases hkey : key = 0
  · simp [claim, hkey]
  by_cases hfree : b.sem[ch.toNat] = 0
  · simp [claim, hkey, hfree, Ne.symm hkey]
  by_cases hown : b.sem[ch.toNat] = key
  · have henabled : b.inten.get side.peer &&& (1 <<< UInt32.ofNat ch.toNat) ≠ 0 ↔
        hasBit ⟨ch.toNat, hch⟩ (b.inten.get side.peer) = true := by simp [hasBit]
    have hmask := hasBit_shiftLeft_one j ⟨ch.toNat, hch⟩
    simp only [claim, Fin.getElem_fin, if_neg hkey, if_neg hfree, if_pos hown, henabled]
    generalize (1 <<< UInt32.ofNat ch.toNat : UInt32) = mask at hmask
    by_cases hside : side' = side.peer
    · subst hside
      by_cases hj : j = ⟨ch.toNat, hch⟩
      · subst hj
        cases hbit : hasBit ⟨ch.toNat, hch⟩ (b.inten.get side.peer) with
        | true => simp [hkey, hown, hmask]
        | false => simp
      · cases hasBit ⟨ch.toNat, hch⟩ (b.inten.get side.peer) with
        | true => simp [hj, hmask]
        | false => simp [hj]
    · split
      · simp [Both.get_set, hside]
      · simp [hside]
  · simp [claim, hkey, hfree, hown]

/-- A write to a claim register does nothing to the status of the core that writes. -/
lemma intsts_writeSem_self (b : Block) (side : Side) (ch key : UInt8) :
    (b.writeSem side ch key).2.intsts.get side = b.intsts.get side := by
  simp only [writeSem, claim]
  split_ifs <;> simp

end Block

namespace Listener

variable {l : Listener} {side : Side} {m : Machine} {q : Request}

lemma releases_writeSem {ch : UInt8} (hch : ch.toNat < 32) (w : UInt32) :
    l.releases side m (.access (.write (.sem ch) w)) = true ↔
      l.side = side.peer ∧ l.channel.bit = ⟨ch.toNat, hch⟩ ∧ w.toUInt8 ≠ 0 ∧
        m.block.sem[ch.toNat] = w.toUInt8 := by
  rw [releases, decide_eq_true_iff, Side.eq_peer_comm]
  refine and_congr_right fun _ => ⟨?_, ?_⟩
  · rintro ⟨hclaimed, hfreed⟩
    exact (Block.claimed_writeSem_eq_zero_iff hch hclaimed).mp hfreed
  · rintro ⟨hbit, hkey, hown⟩
    have hclaimed : m.block.claimed l.channel ≠ 0 := by
      have hval : l.channel.val = ch.toNat := congrArg Fin.val hbit
      simpa only [Block.claimed, hval, hown] using hkey
    exact ⟨hclaimed, (Block.claimed_writeSem_eq_zero_iff hch hclaimed).mpr ⟨hbit, hkey, hown⟩⟩

lemma latched_writeSem {ch : UInt8} (hch : ch.toNat < 32) (w : UInt32) :
    l.latched (Machine.handler side (.access (.write (.sem ch) w)) m).2 =
      (l.latched m || (l.releases side m (.access (.write (.sem ch) w)) && l.enabled m)) := by
  rw [latched, Machine.handler, Block.handler, Block.hasBit_intsts_writeSem hch, Bool.eq_iff_iff]
  simp only [Bool.or_eq_true, Bool.and_eq_true, releases_writeSem hch, decide_eq_true_eq, latched,
    enabled]
  tauto

lemma eq_of_clears (h : l.clears side q = true) : side = l.side := by
  unfold clears at h
  split at h
  · exact (of_decide_eq_true h).1
  · cases h

/-- A request that is to post the bit. -/
def asksToPost (l : Listener) (side : Side) : Request → Bool
  | .post mask => side = l.side ∧ hasBit l.channel.bit mask
  | .access _ => false

/-- The bit gets into the signal by being posted, and in no other way. -/
lemma posts_eq (l : Listener) (side : Side) (m : Machine) (q : Request) :
    l.posts side m q = l.asksToPost side q := by
  cases q with
  | access a => simp [posts, asksToPost, signalled, Machine.handler]
  | post mask =>
    by_cases hside : side = l.side
    · simp [posts, asksToPost, signalled, Machine.handler, Signal.post, hside]
    · simp [posts, asksToPost, signalled, Machine.handler, Both.get_set, hside, Ne.symm hside]

/-- Once it is there, it stays. -/
lemma signalled_handler (l : Listener) (side : Side) (m : Machine) (q : Request) :
    l.signalled (Machine.handler side q m).2 = (l.signalled m || l.posts side m q) := by
  rw [posts_eq]
  cases q with
  | access a => simp [asksToPost, signalled, Machine.handler]
  | post mask =>
    by_cases hside : side = l.side
    · simp [asksToPost, signalled, Machine.handler, Signal.post, hside]
    · simp [asksToPost, signalled, Machine.handler, Both.get_set, hside, Ne.symm hside]

lemma asksToPost_of_clears (h : l.clears side q = true) : l.asksToPost side q = false := by
  unfold clears at h
  split at h
  · rfl
  · cases h

lemma eq_of_asksToPost (h : l.asksToPost side q = true) : side = l.side := by
  unfold asksToPost at h
  split at h
  · exact (of_decide_eq_true h).1
  · cases h

lemma eq_of_releases (h : l.releases side m q = true) : side = l.side.peer :=
  (of_decide_eq_true h).1

lemma releases_eq_false (h : (Machine.handler side q m).2.block.sem = m.block.sem) :
    l.releases side m q = false := by
  simp only [releases, Block.claimed, h, decide_eq_false_iff_not]
  tauto

/-- The status bit, by what it was before and what has happened. -/
def statusAfter (latched : Bool) : Option Notice → Bool
  | some .rung => true
  | some .cleared => false
  | _ => latched

/-- What a request makes of the status bit is told by what it is to the listener. -/
lemma latched_handler (l : Listener) (side : Side) (m : Machine) (hq : Served q) :
    ∃ r m', Machine.handler side q m = (.ok r, m') ∧
      l.latched m' = statusAfter (l.latched m) (l.notice? side m q) := by
  match q, hq with
  | .access (.write (.sem ch) w), hq =>
    have hq : ch.toNat < 32 := hq
    refine ⟨(), (Machine.handler side (.access (.write (.sem ch) w)) m).2, ?_, ?_⟩
    · simp [Machine.handler, Block.handler, Block.writeSem_of_lt _ _ _ hq]
    rw [latched_writeSem hq, notice?, posts_eq]
    cases l.releases side m (.access (.write (.sem ch) w)) <;> cases l.enabled m <;>
      simp [statusAfter, clears, asksToPost]
  | .access (.write .intsts w), _ =>
    refine ⟨(), _, rfl, ?_⟩
    rw [notice?, posts_eq, releases_eq_false rfl]
    by_cases hside : side = l.side
    · subst hside
      cases hbit : hasBit l.channel.bit w <;> simp [statusAfter, clears, asksToPost, latched, hbit]
    · simp [statusAfter, clears, asksToPost, latched, hside, Both.get_set, Ne.symm hside]
  | .access (.read (.sem ch)), hq =>
    have hq : ch.toNat < 32 := hq
    have hrun : Machine.handler side (.access (.read (.sem ch))) m =
        (.ok m.block.sem[ch.toNat].toUInt32, m) := by
      simp [Machine.handler, Block.handler, hq]
    refine ⟨_, m, hrun, ?_⟩
    rw [notice?, posts_eq, releases_eq_false (by rw [hrun])]
    simp [statusAfter, clears, asksToPost]
  | .access (.read .inten), _ | .access (.read .intsts), _ | .access (.write .inten w), _
  | .access .pause, _ =>
    refine ⟨_, _, rfl, ?_⟩
    rw [notice?, posts_eq, releases_eq_false rfl]
    simp [statusAfter, clears, asksToPost, latched]
  | .post mask, _ =>
    refine ⟨(), _, rfl, ?_⟩
    rw [notice?, posts_eq, releases_eq_false rfl]
    cases l.asksToPost side (.post mask) <;> simp [statusAfter, clears, latched]

/-!
### The account of the listener

How the status bit and what the listener knows come from what has happened.
-/

/-- What the listener knows while it handles its interrupt. -/
inductive View
  | outside
  /-- It has not looked at the status yet, or has posted what it found there. -/
  | inside
  /-- It has looked, and this was the status bit. -/
  | looked (latched : Bool)
  /-- It has cleared the status bit, and is yet to post it. -/
  | owing
  deriving DecidableEq, Repr

structure Account (latched signalled : Bool) (notices : List Notice) (u : View) : Prop where
  latched_iff : latched = true ↔ Since .cleared .rung notices
  signalled_iff : signalled = true ↔ .posted ∈ notices
  kept : Since .posted .rung notices → latched = true ∨ u = .owing
  backed : ∀ after before, notices = after ++ .posted :: before → Backed before
  owing : u = .owing → Backed notices
  /-- Nobody else clears what the listener has seen. -/
  looked : u = .looked true → latched = true

section Account

variable {latched signalled : Bool} {notices : List Notice} {u u' : View} {a b e : Notice}

lemma since_cons : Since b a (e :: notices) ↔ e = a ∨ e ≠ b ∧ Since b a notices := by
  constructor
  · rintro ⟨after, before, h, hnot⟩
    cases after with
    | nil => exact .inl (List.cons.inj h).1
    | cons x after =>
      obtain ⟨rfl, rfl⟩ := List.cons.inj h
      exact .inr ⟨(List.ne_of_not_mem_cons hnot).symm, after, before, rfl,
        List.not_mem_of_not_mem_cons hnot⟩
  · rintro (rfl | ⟨hne, after, before, rfl, hnot⟩)
    · exact ⟨[], notices, rfl, List.not_mem_nil⟩
    · exact ⟨e :: after, before, rfl, by simp [hne.symm, hnot]⟩

lemma Backed.cons (h : Backed notices) (hne : e ≠ .cleared) : Backed (e :: notices) := by
  obtain ⟨after, before, rfl, hnot, hsince⟩ := h
  exact ⟨e :: after, before, rfl, by simp [hne.symm, hnot], hsince⟩

lemma backed_cons (hhead : e = .posted → Backed notices)
    (htail : ∀ after before, notices = after ++ .posted :: before → Backed before)
    (after before : List Notice) (h : e :: notices = after ++ .posted :: before) :
    Backed before := by
  cases after with
  | nil =>
    obtain ⟨rfl, rfl⟩ := List.cons.inj h
    exact hhead rfl
  | cons x after => exact htail after before (List.cons.inj h).2

namespace Account

lemma fresh : Account false false [] .outside where
  latched_iff := by simp [Since]
  signalled_iff := by simp
  kept := by simp [Since]
  backed := by simp
  owing := nofun
  looked := nofun

/-- The listener changes its mind, and nothing happens. -/
lemma turn (h : Account latched signalled notices u) (hu : u ≠ .owing) (hu' : u' ≠ .owing)
    (hlooked : u' = .looked true → latched = true) : Account latched signalled notices u' where
  latched_iff := h.latched_iff
  signalled_iff := h.signalled_iff
  kept hsince := .inl ((h.kept hsince).resolve_right hu)
  backed := h.backed
  owing howing := absurd howing hu'
  looked := hlooked

lemma ring (h : Account latched signalled notices u) :
    Account true signalled (.rung :: notices) u where
  latched_iff := by simp [since_cons]
  signalled_iff := by simpa using h.signalled_iff
  kept _ := .inl rfl
  backed := backed_cons nofun h.backed
  owing hu := (h.owing hu).cons nofun
  looked _ := rfl

lemma miss (h : Account latched signalled notices u) :
    Account latched signalled (.missed :: notices) u where
  latched_iff := by simpa [since_cons] using h.latched_iff
  signalled_iff := by simpa using h.signalled_iff
  kept := by simpa [since_cons] using h.kept
  backed := backed_cons nofun h.backed
  owing hu := (h.owing hu).cons nofun
  looked := h.looked

/-- What the other core does is heard at once, if it is to be heard. -/
lemma hear {notice : Option Notice} (h : Account latched signalled notices u)
    (hnotice : notice = none ∨ notice = some .rung ∨ notice = some .missed) :
    Account (statusAfter latched notice) signalled (notice.toList ++ notices) u := by
  rcases hnotice with rfl | rfl | rfl
  · exact h
  · exact h.ring
  · exact h.miss

lemma clear (h : Account latched signalled notices (.looked true)) :
    Account false signalled (.cleared :: notices) .owing where
  latched_iff := by simp [since_cons]
  signalled_iff := by simpa using h.signalled_iff
  kept _ := .inr rfl
  backed := backed_cons nofun h.backed
  owing _ := ⟨[], notices, rfl, List.not_mem_nil, h.latched_iff.mp (h.looked rfl)⟩
  looked := nofun

lemma post (h : Account latched signalled notices .owing) :
    Account latched true (.posted :: notices) .inside where
  latched_iff := by simpa [since_cons] using h.latched_iff
  signalled_iff := by simp
  kept := by simp [since_cons]
  backed := backed_cons (fun _ => h.owing rfl) h.backed
  owing := nofun
  looked := nofun

end Account

end Account

/-!
### What the contexts expect
-/

/-- What a context learns from a request that neither clears nor posts. -/
def Learns (l : Listener) (side : Side) (u : View) :
    (q : Request) → Intercore.Request.Answer q → View → Prop
  | .access (.read .intsts), (r : UInt32), u' =>
    u' = if side = l.side ∧ u = .inside then .looked (hasBit l.channel.bit r) else u
  | _, _, u' => u' = u

/-- The listener clears the status bit only if it has seen it, and posts what it has cleared. -/
def contract (l : Listener) (side : Side) : Contract Request View where
  allows u q := Served q ∧ (l.clears side q = true → u = .looked true) ∧
    (l.asksToPost side q = true → u = .owing)
  answers u q r u' :=
    if l.clears side q then u' = .owing
    else if l.asksToPost side q then u' = .inside
    else l.Learns side u q r u'

/-- A request that is nothing to the listener, or that the block answers it with. -/
def Aside (l : Listener) (side : Side) (q : Request) : Prop :=
  Served q ∧ l.clears side q = false ∧ l.asksToPost side q = false

section Calls

variable {α : Type} {ch : Channel} {key : Key}

lemma keeps_aside {p : Prog α} (hp : p.All (l.Aside side)) :
    p.Keeps (l.contract side) (fun _ u => u = .outside) .outside := by
  refine hp.keeps rfl ?_
  rintro q _ ⟨hserved, hclears, hposts⟩ rfl
  refine ⟨⟨hserved, by simp [hclears], by simp [hposts]⟩, ?_⟩
  intro r u' hr
  simp only [contract, hclears, hposts, Bool.false_eq_true, if_false] at hr
  match q with
  | .access (.read .intsts) => simpa [Learns] using hr
  | .access (.read (.sem _)) | .access (.read .inten) | .access (.write _ _) | .access .pause
  | .post _ => exact hr

lemma readKey_aside : (readKey ch).All (l.Aside side) := by
  have hch : ch.index.toNat < 32 := ch.toNat_index ▸ ch.bit.isLt
  exact ⟨⟨hch, rfl, rfl⟩, fun _ => trivial⟩

lemma writeKey_aside : (writeKey ch key).All (l.Aside side) := by
  have hch : ch.index.toNat < 32 := ch.toNat_index ▸ ch.bit.isLt
  exact ⟨⟨hch, rfl, rfl⟩, fun _ => trivial⟩

lemma tryLock_aside : (tryLock ch key).All (l.Aside side) := by
  rw [tryLock]
  apply Program.all_bind readKey_aside
  intro current
  split
  · trivial
  split
  · trivial
  apply Program.all_bind writeKey_aside
  intro _
  exact Program.all_bind readKey_aside fun _ => trivial

lemma unlock_aside : (unlock ch key).All (l.Aside side) := by
  rw [unlock]
  apply Program.all_bind readKey_aside
  intro current
  split
  · trivial
  · exact Program.all_bind writeKey_aside fun _ => trivial

lemma enableInt_aside : (enableInt ch).All (l.Aside side) :=
  ⟨⟨trivial, rfl, rfl⟩, fun _ => ⟨⟨trivial, rfl, rfl⟩, fun _ => trivial⟩⟩

lemma disableInt_aside : (disableInt ch).All (l.Aside side) :=
  ⟨⟨trivial, rfl, rfl⟩, fun _ => ⟨⟨trivial, rfl, rfl⟩, fun _ => trivial⟩⟩

/-- The other core handles interrupts of its own. -/
lemma handleInterrupt_aside (hside : side ≠ l.side) :
    handleInterrupt.All (l.Aside side) := by
  refine ⟨⟨trivial, rfl, rfl⟩, fun status => ⟨⟨trivial, rfl, rfl⟩, fun enabled => ?_⟩⟩
  simp only [Program.done_bind]
  split
  · exact ⟨⟨trivial, by simp [clears, hside], rfl⟩,
      fun _ => ⟨⟨trivial, rfl, by simp [asksToPost, hside]⟩, fun _ => trivial⟩⟩
  · trivial

lemma keeps_clear (latched : Bool) (bits : UInt32)
    (hbits : hasBit l.channel.bit bits = true → latched = true) :
    (write .intsts bits).Keeps (l.contract l.side)
      (fun _ u => u = if hasBit l.channel.bit bits then .owing else .looked latched)
      (.looked latched) := by
  have hclears : l.clears l.side (.access (.write .intsts bits)) = hasBit l.channel.bit bits := by
    simp [clears]
  refine ⟨⟨trivial, fun h => by rw [hbits (hclears ▸ h)], nofun⟩, ?_⟩
  intro _ u hu
  simp only [contract, hclears] at hu
  split at hu
  next hbit => rwa [if_pos hbit]
  next hbit =>
    rw [if_neg hbit]
    exact hu

lemma keeps_post (latched : Bool) (bits : UInt32) :
    (post bits).Keeps (l.contract l.side) (fun _ u => u ≠ .owing)
      (if hasBit l.channel.bit bits then .owing else .looked latched) := by
  have hposts : l.asksToPost l.side (.post bits) = hasBit l.channel.bit bits := by simp [asksToPost]
  refine ⟨⟨trivial, nofun, fun h => if_pos (hposts ▸ h)⟩, ?_⟩
  intro _ u hu
  simp only [contract, hposts] at hu
  cases hbit : hasBit l.channel.bit bits with
  | true =>
    obtain rfl : u = .inside := by simpa [hbit, clears] using hu
    exact nofun
  | false =>
    obtain rfl : u = .looked latched := by simpa [hbit, clears, Learns] using hu
    exact nofun

lemma keeps_handleInterrupt :
    handleInterrupt.Keeps (l.contract l.side) (fun _ u => u ≠ .owing) .inside := by
  refine ⟨⟨trivial, nofun, nofun⟩, ?_⟩
  intro (status : UInt32) u hu
  obtain rfl : u = .looked (hasBit l.channel.bit status) := by
    simpa [contract, clears, asksToPost, Learns] using hu
  refine ⟨⟨trivial, nofun, nofun⟩, ?_⟩
  rintro (enabled : UInt32) _ rfl
  simp only [Program.done_bind]
  split
  · simp only [Program.bind_eq, Program.pure_eq, Program.keeps_bind]
    apply (keeps_clear (hasBit l.channel.bit status) (status &&& enabled) ?_).mono
    · rintro _ _ rfl
      exact keeps_post _ _
    · intro hbit
      rw [hasBit_and, Bool.and_eq_true] at hbit
      exact hbit.1
  · exact nofun

/-- What a context knows when it begins a call. -/
def entry (l : Listener) (side : Side) (k : Call) : View :=
  if side = l.side ∧ k = .handleInterrupt then .inside else .outside

lemma keeps_call (side : Side) (k : Call) :
    k.program.Keeps (l.contract side) (fun _ u => u ≠ .owing) (l.entry side k) := by
  have haside : k.program.All (l.Aside side) →
      k.program.Keeps (l.contract side) (fun _ u => u ≠ .owing) .outside := by
    intro hk
    apply (keeps_aside hk).mono
    rintro _ _ rfl
    exact nofun
  cases k with
  | tryLock ch key => simpa [entry] using haside tryLock_aside
  | unlock ch key => simpa [entry] using haside unlock_aside
  | enableInt ch => simpa [entry] using haside enableInt_aside
  | disableInt ch => simpa [entry] using haside disableInt_aside
  | handleInterrupt =>
    by_cases hside : side = l.side
    · subst hside
      rw [entry, if_pos ⟨rfl, rfl⟩]
      exact keeps_handleInterrupt
    · simpa [entry, hside] using haside (handleInterrupt_aside hside)

end Calls

/-!
### Both cores together
-/

/-- How the views of the contexts are tied to the machine and to the history. -/
structure Agrees (l : Listener) (h : History Side Call) (s : Watched) (v : Side → View) : Prop where
  peer : v l.side.peer = .outside
  current : v l.side ≠ .outside → h.current l.side = some .handleInterrupt
  account : Account (l.latched s.machine) (l.signalled s.machine) s.notices (v l.side)

namespace Agrees

variable {h : History Side Call} {s s' : Watched} {v : Side → View} {u : View}

/-- What has to be shown when the listener comes to know something else. -/
lemma learn (hv : Agrees l h s v) (hu : u ≠ .outside → v l.side ≠ .outside)
    (haccount : Account (l.latched s'.machine) (l.signalled s'.machine) s'.notices u) :
    Agrees l h s' (Function.update v l.side u) where
  peer := by simpa using hv.peer
  current := by simpa using fun h => hv.current (hu h)
  account := by simpa using haccount

/-- What has to be shown when something happens and the listener does not know. -/
lemma happen (hv : Agrees l h s v)
    (haccount : Account (l.latched s'.machine) (l.signalled s'.machine) s'.notices (v l.side)) :
    Agrees l h s' v where
  peer := hv.peer
  current := hv.current
  account := haccount

/-- What the other core begins and returns from is nothing to the listener. -/
lemma milestone_peer (hv : Agrees l h s v) (e : Milestone Call) :
    Agrees l (h ++ [(l.side.peer, e)]) s (Function.update v l.side.peer .outside) where
  peer := by simp
  current := by
    cases e <;> simpa [Function.update_of_ne (Side.peer_ne l.side).symm] using hv.current
  account := by
    simpa [Function.update_of_ne (Side.peer_ne l.side).symm] using hv.account

lemma milestone (hv : Agrees l h s v) {e : Milestone Call} (howing : v l.side ≠ .owing)
    (hu : u = .outside ∨ u = .inside ∧ e = .begun .handleInterrupt) :
    Agrees l (h ++ [(l.side, e)]) s (Function.update v l.side u) where
  peer := by simpa using hv.peer
  current := by
    rcases hu with rfl | ⟨rfl, rfl⟩
    · simp
    · simp
  account := by
    have haccount : Account (l.latched s.machine) (l.signalled s.machine) s.notices u := by
      rcases hu with rfl | ⟨rfl, -⟩
      · exact hv.account.turn howing (by simp) (by simp)
      · exact hv.account.turn howing (by simp) (by simp)
    simpa using haccount

/-- What an answer tells the context that gets it. -/
lemma exists_learns (side : Side) (u : View) {q : Request} {m m' : Machine}
    {r : Intercore.Request.Answer q} (hrun : Machine.handler side q m = (.ok r, m')) :
    ∃ u', l.Learns side u q r u' ∧
      (u' = u ∨ side = l.side ∧ u = .inside ∧ u' = .looked (l.latched m)) := by
  match q with
  | .access (.read .intsts) =>
    obtain rfl : m.block.intsts.get side = r :=
      Except.ok.inj (congrArg Prod.fst hrun : Except.ok (ε := Fault) _ = _)
    refine ⟨_, rfl, ?_⟩
    split
    next hlook =>
      obtain ⟨rfl, rfl⟩ := hlook
      exact .inr ⟨rfl, rfl, rfl⟩
    next => exact .inl rfl
  | .access (.read (.sem _)) | .access (.read .inten) | .access (.write _ _) | .access .pause
  | .post _ => exact ⟨u, rfl, .inl rfl⟩

/-- What the machine answers is what the contract of each context promises it. -/
lemma answer (hv : Agrees l h s v) (side : Side) (q : Request)
    (hq : (l.contract side).allows (v side) q) :
    ∃ r s' u, l.handler side q s = (.ok r, s') ∧ (l.contract side).answers (v side) q r u ∧
      Agrees l h s' (Function.update v side u) := by
  obtain ⟨hserved, hmayclear, hmaypost⟩ := hq
  obtain ⟨r, m', hrun, hlatched⟩ := latched_handler l side s.machine hserved
  have hsignalled := signalled_handler l side s.machine q
  have hhandler : l.handler side q s =
      (.ok r, ⟨m', (l.notice? side s.machine q).toList ++ s.notices⟩) := by
    simp only [handler, hrun]
  rw [hrun, posts_eq] at hsignalled
  have haccount := hv.account
  by_cases hclears : l.clears side q = true
  · obtain rfl : side = l.side := eq_of_clears hclears
    rw [notice?, if_pos hclears] at hhandler hlatched
    rw [asksToPost_of_clears hclears, Bool.or_false] at hsignalled
    rw [hmayclear hclears] at haccount
    refine ⟨r, _, .owing, hhandler, by simp [contract, hclears], hv.learn (fun _ => ?_) ?_⟩
    · rw [hmayclear hclears]
      exact nofun
    · rw [hlatched, hsignalled]
      exact haccount.clear
  by_cases hposts : l.asksToPost side q = true
  · obtain rfl : side = l.side := eq_of_asksToPost hposts
    rw [notice?, posts_eq, if_neg hclears, if_pos hposts] at hhandler hlatched
    rw [hposts, Bool.or_true] at hsignalled
    rw [hmaypost hposts] at haccount
    refine ⟨r, _, .inside, hhandler, by simp [contract, hclears, hposts],
      hv.learn (fun _ => ?_) ?_⟩
    · rw [hmaypost hposts]
      exact nofun
    · rw [hlatched, hsignalled]
      exact haccount.post
  rw [notice?, posts_eq, if_neg hclears, if_neg hposts] at hhandler hlatched
  rw [Bool.eq_false_of_not_eq_true hposts, Bool.or_false] at hsignalled
  obtain ⟨u, hlearns, hu⟩ := exists_learns (l := l) side (v side) hrun
  have hanswers : (l.contract side).answers (v side) q r u := by
    simpa only [contract, if_neg hclears, if_neg hposts] using hlearns
  obtain rfl | ⟨rfl, hinside, rfl⟩ := hu
  · refine ⟨r, _, v side, hhandler, hanswers, ?_⟩
    rw [Function.update_eq_self]
    apply hv.happen
    rw [hlatched, hsignalled]
    apply haccount.hear
    cases l.releases side s.machine q <;> cases l.enabled s.machine <;> simp
  · have hreleases : ¬ l.releases l.side s.machine q = true :=
      fun h => Side.peer_ne l.side (eq_of_releases h).symm
    rw [if_neg hreleases] at hhandler hlatched
    refine ⟨r, _, .looked (l.latched s.machine), hhandler, hanswers, hv.learn (fun _ => ?_) ?_⟩
    · rw [hinside]
      exact nofun
    · rw [hinside] at haccount
      rw [hlatched, hsignalled]
      exact haccount.turn nofun nofun View.looked.inj

end Agrees

lemma invariant (l : Listener) :
    l.ensemble.Invariant l.contract (fun _ u => u = .outside) (fun _ _ _ u => u ≠ .owing)
      l.Agrees where
  begin_call {h s v} side k hv hrests _ := by
    refine ⟨l.entry side k, ?_, keeps_call side k⟩
    obtain rfl | rfl := Side.eq_or_eq_peer side l.side
    · refine hv.milestone (by rw [hrests]; exact nofun) ?_
      by_cases hk : k = .handleInterrupt
      · exact .inr ⟨if_pos ⟨rfl, hk⟩, congrArg _ hk⟩
      · exact .inl (if_neg fun h => hk h.2)
    · rw [entry, if_neg fun h => Side.peer_ne _ h.1]
      exact hv.milestone_peer _
  answer side q hv hq := hv.answer side q hq
  return_call {h s v} side k r hv hr := by
    refine ⟨.outside, ?_, rfl⟩
    obtain rfl | rfl := Side.eq_or_eq_peer side l.side
    · exact hv.milestone hr (.inl rfl)
    · exact hv.milestone_peer _

lemma holds_idle (l : Listener) :
    Ensemble.Holds l.contract (fun _ u => u = .outside) (fun _ _ _ u => u ≠ .owing) l.Agrees
      (.idle .fresh) := by
  refine ⟨fun _ => .outside, ⟨rfl, absurd rfl, ?_⟩, fun _ => rfl⟩
  have hlatched : l.latched .fresh = false := by
    simp [latched, Machine.fresh, Block.fresh]
  have hsignalled : l.signalled .fresh = false := by
    simp [signalled, Machine.fresh]
  change Account (l.latched .fresh) (l.signalled .fresh) [] .outside
  rw [hlatched, hsignalled]
  exact .fresh

/-- However the accesses of the two cores fall between each other: no core is ever stopped, and if the
channel was released while the listener had enabled its interrupt, then the status bit is still latched
or was posted since, and is pending in the signal, unless the listener is handling its interrupt. The
status bit is latched if and only if there was such a release since it was last cleared, and so never
for a release that was missed. The bit is pending in the signal if and only if it was posted. Each time
that it is posted there was such a release before the status was cleared, and after the time before. A
core never gets its own releases to see. -/
theorem no_lost_release (l : Listener) (schedule : List (Ensemble.Move Side Call)) :
    let s := l.ensemble.run schedule (.idle .fresh)
    (∀ i, s.activity i ≠ .stopped) ∧
      (∀ after before, s.shared.notices = after ++ .rung :: before →
        (s.activity l.side).call? ≠ some .handleInterrupt →
          l.latched s.shared.machine = true ∨
            .posted ∈ after ∧ l.signalled s.shared.machine = true) ∧
      (l.latched s.shared.machine = true ↔ Since .cleared .rung s.shared.notices) ∧
      (l.signalled s.shared.machine = true ↔ .posted ∈ s.shared.notices) ∧
      (∀ after before, s.shared.notices = after ++ .posted :: before → Backed before) ∧
      ∀ side ch w,
        (Machine.handler side (.access (.write (.sem ch) w)) s.shared.machine).2.block.intsts.get
          side = s.shared.machine.block.intsts.get side := by
  intro s
  obtain ⟨v, hv, hcurrent⟩ := l.invariant.run_idle l.holds_idle schedule
  have haccount := hv.account
  refine ⟨(l.invariant.run l.holds_idle schedule).not_stopped, ?_, haccount.latched_iff,
    haccount.signalled_iff, haccount.backed, ?_⟩
  · intro after before hnotices hout
    by_contra hlost
    rw [not_or] at hlost
    have hunposted : .posted ∉ after := by
      intro hposted
      refine hlost.2 ⟨hposted, haccount.signalled_iff.mpr ?_⟩
      rw [hnotices]
      exact List.mem_append_left _ hposted
    have howing : v l.side = .owing :=
      (haccount.kept ⟨after, before, hnotices, hunposted⟩).resolve_left hlost.1
    -- what is owed is posted by the call that it is inside of
    have hinside := hv.current (by rw [howing]; exact nofun)
    exact hout ((hcurrent l.side).symm.trans hinside)
  · intro side ch w
    exact Block.intsts_writeSem_self _ _ _ _

/-- The channel is released again after the handler has cleared the status bit. -/
example :
    let l : Listener := ⟨.app, ⟨0, by decide⟩⟩
    let key : Key := ⟨1, by decide⟩
    let listen := (Program.request (Call.enableInt l.channel)).bind fun _ =>
      (Program.request Call.handleInterrupt).bind fun _ => .done ()
    let use := (Program.request (Call.tryLock l.channel key)).bind fun _ =>
      (Program.request (Call.unlock l.channel key)).bind fun _ => .done ()
    let s := l.ensemble.run
      ([.start .app listen, .start .rt use] ++ List.replicate 3 (.proceed .app) ++
        List.replicate 7 (.proceed .rt) ++ List.replicate 4 (.proceed .app) ++ [.start .rt use] ++
        List.replicate 7 (.proceed .rt) ++ [.proceed .app])
      (.idle .fresh)
    s.shared.notices = [.posted, .rung, .cleared, .rung] ∧ l.latched s.shared.machine = true ∧
      l.signalled s.shared.machine = true := by
  decide +kernel

end Listener

end Intercore.Semaphore
