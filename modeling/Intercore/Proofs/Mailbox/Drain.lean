import Intercore.Proofs.Mailbox.Place
import Intercore.Proofs.Mailbox.Wakeup
import Mathlib.Data.List.Basic

/-!
# What the interrupt handler does in one go

The handler looks once at what is latched and enabled, and then receives channel by channel. Each time it
rewrites the registers of both cores, so it is said first what a number of receptions make of them, and
then which receptions the handler makes.

A flag may be latched with no message behind it, or for a channel that does not exist, and a message may
wait on a channel that is not enabled.
-/

namespace Intercore.Mailbox

variable {c c' c'' : Controller} {side : Side} {ch : Channel}

/-!
### Bits of the handler
-/

lemma hasBit_ackBits (i : Fin 32) (w : UInt32) :
    hasBit i (ackBits w) = (hasBit i w && decide (16 ≤ i.val)) := by
  have hlow : hasBit i ((1 <<< ackShift) - 1) = decide (i.val < 16) := by
    revert i
    decide
  by_cases hi : i.val < 16
  · simp [ackBits, hlow, hi]
  · simp [ackBits, hlow, hi, Nat.le_of_not_lt hi]

/-- Shifting drops the other bits anyway. -/
lemma ackBits_shiftRight (w : UInt32) : ackBits w >>> ackShift = w >>> ackShift := by
  have hshift (i : Fin 32) (v : UInt32) :
      hasBit i (v >>> ackShift) = v.toBitVec.getLsbD (16 + i.val) := by
    simp [hasBit_eq, ackShift]
  rw [ext_hasBit]
  intro i
  rw [hshift, hshift]
  by_cases hi : 16 + i.val < 32
  · have hbit := hasBit_ackBits ⟨16 + i.val, hi⟩ w
    simpa [hasBit_eq] using hbit
  · rw [BitVec.getLsbD_of_ge _ _ (by omega), BitVec.getLsbD_of_ge _ _ (by omega)]

/-- To clear the flag of a channel clears no other one. -/
lemma hasBit_and_not_mask (i : Fin 32) (w : UInt32) : hasBit i (w &&& ~~~ch.mask) = true ↔
    hasBit i w = true ∧ ∀ ch' ∈ [ch], ch'.bit ≠ i := by
  have hmask : hasBit i ch.mask = decide (i = ch.bit) := hasBit_shiftLeft_one i ch.bit
  rw [List.forall_mem_singleton, ne_comm]
  simp [hmask]

/-!
### What receptions make of the controller
-/

/-- To acknowledge an empty lane does nothing. -/
lemma LaneState.after_acknowledge_of_empty {s : LaneState} (h : s.full = false) :
    s.after .acknowledge = s := by
  cases s
  simp_all [after]

namespace Controller

/-- What the controller is after receiving on a channel. -/
def emptied (c : Controller) (side : Side) (ch : Channel) : Controller :=
  if (c.lane ⟨ch, side.peer⟩).full then c.received side ch else c.clear side ch.mask

lemma run_recv_emptied : (recv ch).run (handler side) c =
    (.ok (c.lane ⟨ch, side.peer⟩).inFlight, c.emptied side ch) := by
  rw [run_recv, emptied, LaneState.inFlight]
  split
  · rfl
  · rfl

/-- One core received on some channels, whether or not there was a message. -/
structure Emptied (c : Controller) (side : Side) (channels : List Channel) (c' : Controller) :
    Prop where
  taken l : l.source = side.peer → l.channel ∈ channels →
    c'.lane l = (c.lane l).after .acknowledge
  kept l : ¬ (l.source = side.peer ∧ l.channel ∈ channels) → c'.lane l = c.lane l
  /-- The core has lost the receive flags of these channels and no other flag. -/
  own i : hasBit i (c'.intsts.get side) = true ↔
    hasBit i (c.intsts.get side) = true ∧ ∀ ch ∈ channels, ch.bit ≠ i
  /-- The other core has the same receive flags as before. -/
  other (ch : Channel) : ch.marked (c'.intsts.get side.peer) = ch.marked (c.intsts.get side.peer)
  inten : c'.inten = c.inten

namespace Emptied

variable {channels channels' : List Channel}

lemma nothing : c.Emptied side [] c where
  taken l := by simp
  kept l _ := rfl
  own i := by simp
  other ch := rfl
  inten := rfl

lemma trans (h : c.Emptied side channels c') (h' : c'.Emptied side channels' c'') :
    c.Emptied side (channels ++ channels') c'' where
  taken l hsource hin := by
    by_cases hlater : l.channel ∈ channels'
    · rw [h'.taken l hsource hlater]
      by_cases hfirst : l.channel ∈ channels
      · rw [h.taken l hsource hfirst]
        exact LaneState.after_acknowledge_of_empty rfl
      · rw [h.kept l fun hboth => hfirst hboth.2]
    · have hfirst : l.channel ∈ channels := (List.mem_append.mp hin).resolve_right hlater
      rw [h'.kept l fun hboth => hlater hboth.2, h.taken l hsource hfirst]
  kept l hout := by
    have hlater := h'.kept l fun hboth => hout ⟨hboth.1, List.mem_append_right _ hboth.2⟩
    exact hlater.trans (h.kept l fun hboth => hout ⟨hboth.1, List.mem_append_left _ hboth.2⟩)
  own i := by
    rw [h'.own, h.own, and_assoc, List.forall_mem_append]
  other ch := (h'.other ch).trans (h.other ch)
  inten := h'.inten.trans h.inten

/-- With a message to take, its lane is emptied. -/
lemma received : c.Emptied side [ch] (c.received side ch) where
  taken l hsource hin := by
    have hlane : l = ⟨ch, side.peer⟩ := by rw [← hsource, ← List.mem_singleton.mp hin]
    exact lane_received.trans (if_pos hlane)
  kept l hout := by
    refine lane_received.trans (if_neg ?_)
    rintro rfl
    exact hout ⟨rfl, List.mem_singleton_self ch⟩
  own i := by
    have hclear : (c.received side ch).intsts.get side = c.intsts.get side &&& ~~~ch.mask := by
      simp [Controller.received, clear, acknowledge]
    rw [hclear]
    exact hasBit_and_not_mask i _
  other ch' := by simp [Controller.received, clear, acknowledge]
  inten := rfl

/-- Without a message only the flag is cleared. -/
lemma cleared (hempty : (c.lane ⟨ch, side.peer⟩).full = false) :
    c.Emptied side [ch] (c.clear side ch.mask) where
  taken l hsource hin := by
    obtain rfl : l = ⟨ch, side.peer⟩ := by rw [← hsource, ← List.mem_singleton.mp hin]
    exact (LaneState.after_acknowledge_of_empty hempty).symm
  kept l _ := rfl
  own i := by
    rw [clear, Both.get_set_self]
    exact hasBit_and_not_mask i _
  other ch' := by simp [clear]
  inten := rfl

lemma single : c.Emptied side [ch] (c.emptied side ch) := by
  rw [emptied]
  split
  next => exact received
  next hempty => exact cleared (Bool.eq_false_of_not_eq_true hempty)

/-- The flags of other lanes stay as they are. -/
lemma flagged (h : c.Emptied side channels c') {l : Lane}
    (hout : ¬ (l.source = side.peer ∧ l.channel ∈ channels)) : c'.flagged l = c.flagged l := by
  obtain ⟨ch, source⟩ := l
  rcases Side.eq_or_eq_peer source side with rfl | rfl
  · exact h.other ch
  · have hkept : ∀ ch' ∈ channels, ch'.bit ≠ ch.bit := by
      intro ch' hin hbit
      have hval : ch'.bit.val = ch.bit.val := congrArg Fin.val hbit
      obtain rfl : ch' = ch := Fin.ext hval
      exact hout ⟨rfl, hin⟩
    have hown := (h.own ch.bit).trans (and_iff_left hkept)
    rw [Bool.eq_iff_iff]
    simpa only [Controller.flagged, Channel.marked_eq, Side.peer_peer] using hown

end Emptied

/-- The messages that wait for a core on some channels. -/
def waiting (c : Controller) (side : Side) (channels : List Channel) : List (Channel × Message) :=
  channels.filterMap fun ch => (c.lane ⟨ch, side.peer⟩).inFlight.map (ch, ·)

/-- Receptions on other channels leave the message on a channel where it is. -/
lemma Emptied.waiting_eq {channels channels' : List Channel} (h : c.Emptied side channels c')
    (hdisjoint : ∀ ch ∈ channels', ch ∉ channels) :
    c'.waiting side channels' = c.waiting side channels' := by
  apply List.filterMap_congr
  intro ch hch
  rw [h.kept _ fun hboth => hdisjoint ch hch hboth.2]

/-- The handler receives once on each channel that is due, and hands over what waited there. -/
lemma run_drain {β : Type} (c : Controller) (side : Side) (f : Channel → Message → β)
    (pending : UInt32) {channels : List Channel} (hnodup : channels.Nodup) :
    ∃ c', (drain pending (fun ch msg => .done (f ch msg)) channels).run (handler side) c =
        (.ok ((c.waiting side (channels.filter (·.marked pending))).map fun m => f m.1 m.2), c') ∧
      c.Emptied side (channels.filter (·.marked pending)) c' := by
  induction channels generalizing c with
  | nil => exact ⟨c, rfl, .nothing⟩
  | cons ch rest ih =>
    obtain ⟨hout, hnodup⟩ := List.nodup_cons.mp hnodup
    have hmask : ch.marked pending = true ↔ pending &&& ch.mask ≠ 0 := decide_eq_true_iff
    rw [drain_cons, List.filter_cons]
    by_cases hmarked : ch.marked pending = true
    · obtain ⟨c', hrun, hrest⟩ := ih (c.emptied side ch) hnodup
      have hothers : ∀ ch' ∈ rest.filter (·.marked pending), ch' ∉ [ch] := by
        intro ch' hch' heq
        rw [List.mem_singleton.mp heq] at hch'
        exact hout (List.mem_filter.mp hch').1
      rw [Emptied.single.waiting_eq hothers] at hrun
      rw [if_pos hmarked, if_pos (hmask.mp hmarked)]
      refine ⟨c', ?_, Emptied.single.trans hrest⟩
      rw [Program.bind_eq, Program.run_bind, run_recv_emptied, waiting, List.filterMap_cons]
      cases (c.lane ⟨ch, side.peer⟩).inFlight with
      | none => exact hrun
      | some msg =>
        simp only [Program.bind_eq, Program.pure_eq, Program.done_bind, Program.run_bind, hrun]
        rfl
    · rw [if_neg hmarked, if_neg fun hpending => hmarked (hmask.mpr hpending)]
      exact ih c hnodup

/-!
### The handler
-/

/-- What the controller can come to by programs that the two cores run and flags that are latched with
nothing behind them. -/
inductive Reachable : Controller → Prop
  | fresh : Reachable fresh
  | run {c : Controller} {α : Type} (side : Side) (p : Prog α) :
      Reachable c → Reachable (p.run (handler side) c).2
  | raiseSpurious {c : Controller} (side : Side) (bits : UInt32) :
      Reachable c → Reachable (c.raiseSpurious side bits)

/-- An access to a word that does not exist does nothing. -/
lemma handler_of_not_served {q : Access Register} (hq : ¬ isServed q = true) :
    (handler side q c).2 = c := by
  match q, hq with
  | .read (.rmdat ch word), hq | .read (.tmdat ch word), hq | .write (.tmdat ch word) _, hq =>
    obtain ⟨e, he⟩ : ∃ e, slotIndex ch word = .error e := by
      simp only [isServed, Bool.and_eq_true, decide_eq_true_eq, not_and] at hq
      rw [slotIndex]
      split
      next hch => exact ⟨_, dif_neg (hq hch)⟩
      next => exact ⟨_, rfl⟩
    simp only [handler, he]

lemma Exclusive.run {α : Type} (h : c.Exclusive) (p : Prog α) :
    (p.run (handler side) c).2.Exclusive := by
  induction p generalizing c with
  | done a => exact h
  | ask q next ih =>
    have hq : (handler side q c).2.Exclusive := by
      by_cases hserved : isServed q = true
      · exact fun l => exclusive_handler hserved (h l)
      · rwa [handler_of_not_served hserved]
    rw [Program.run]
    rcases hanswer : handler side q c with ⟨e | r, c'⟩
    · rwa [hanswer] at hq
    · rw [hanswer] at hq
      exact ih r hq

lemma Reachable.exclusive (h : c.Reachable) : c.Exclusive := by
  induction h with
  | fresh => exact exclusive_fresh
  | run side p _ ih => exact ih.run p
  | raiseSpurious side bits _ ih => exact ih

lemma clear_zero : c.clear side 0 = c := by
  cases side with
  | app | rt => simp [clear, Both.get, Both.set]

lemma flagged_clear_ackBits (l : Lane) (w : UInt32) :
    (c.clear side (ackBits w)).flagged l = c.flagged l := by
  simp only [flagged, clear, Both.get_set]
  split
  next heq => simp [heq]
  next => rfl

lemma hasBit_clear_ackBits (i : Fin 32) (w : UInt32) :
    hasBit i ((c.clear side (ackBits w)).intsts.get side) = true ↔
      hasBit i (c.intsts.get side) = true ∧ ¬ (hasBit i w = true ∧ 16 ≤ i.val) := by
  simp only [clear, Both.get_set_self, hasBit_and, hasBit_not, hasBit_ackBits, Bool.and_eq_true,
    Bool.not_eq_true', Bool.eq_false_iff, ne_eq, decide_eq_true_eq]

/-- The flags that are latched and enabled. -/
def pending (c : Controller) (side : Side) : UInt32 := c.intsts.get side &&& c.inten.get side

/-- The channels that exist and whose receive flag is pending, in ascending order. -/
def due (c : Controller) (side : Side) : List Channel :=
  Channel.all.filter (·.marked (c.pending side))

lemma mem_due : ch ∈ c.due side ↔ ch.marked (c.pending side) = true := by
  simp [due, Channel.all]

lemma run_handleInterrupt {β : Type} (c : Controller) (side : Side) (f : Channel → Message → β) :
    ∃ c', (handleInterrupt fun ch msg => pure (f ch msg)).run (handler side) c =
        (.ok ((c.waiting side (c.due side)).map fun m => f m.1 m.2, c.pending side >>> ackShift),
          c'.clear side (ackBits (c.pending side))) ∧
      c.Emptied side (c.due side) c' := by
  obtain ⟨c', hrun, hemptied⟩ :=
    run_drain c side f (c.pending side) (List.nodup_finRange channelCount)
  refine ⟨c', ?_, hemptied⟩
  have hstatus : (read .intsts).run (handler side) c = (.ok (c.intsts.get side), c) := rfl
  have henabled : (read .inten).run (handler side) c = (.ok (c.inten.get side), c) := rfl
  simp only [handleInterrupt_eq, Program.bind_eq, Program.pure_eq, Program.run_bind, hstatus,
    henabled, ackBits_shiftRight]
  rw [← pending, Channel.all, hrun]
  by_cases hnone : ackBits (c.pending side) = 0
  · rw [hnone, clear_zero]
    rfl
  · simp only [if_pos hnone]
    rfl

/-- The receive flags that are lost are the pending ones of channels that exist. -/
lemma forall_due_bit_ne {i : Fin 32} : (∀ ch ∈ c.due side, ch.bit ≠ i) ↔
    ¬ (hasBit i (c.pending side) = true ∧ i.val < channelCount) := by
  constructor
  · rintro hlost ⟨hpending, hexists⟩
    exact hlost ⟨i.val, hexists⟩ (mem_due.mpr hpending) rfl
  · rintro hkept ch hch rfl
    exact hkept ⟨mem_due.mp hch, ch.isLt⟩

end Controller

/-- Whatever the cores did before and whichever interrupts are enabled, the handler hands over the
messages that wait on the channels whose receive flag is pending, once each and in ascending order. On
these channels nothing waits any more, and the other core may send again. Other lanes keep their
message, their flag and whether they are ready. The flags that are lost are the pending ones, save the
receive flags of channels that do not exist. -/
theorem handleInterrupt_drains {β : Type} (h : c.Reachable) (side : Side)
    (f : Channel → Message → β) :
    ∃ c', (handleInterrupt fun ch msg => pure (f ch msg)).run (Controller.handler side) c =
        (.ok ((c.waiting side (c.due side)).map fun m => f m.1 m.2, c.pending side >>> ackShift),
          c') ∧
      (∀ ch ∈ c.due side,
        (c'.lane ⟨ch, side.peer⟩).full = false ∧ (c'.lane ⟨ch, side.peer⟩).ready = true) ∧
      (∀ l : Lane, l.source = side ∨ l.channel ∉ c.due side →
        c'.lane l = c.lane l ∧ c'.flagged l = c.flagged l) ∧
      (∀ i, hasBit i (c'.intsts.get side) = true ↔
        hasBit i (c.intsts.get side) = true ∧
          ¬ (hasBit i (c.pending side) = true ∧ (i.val < channelCount ∨ 16 ≤ i.val))) ∧
      c'.inten = c.inten := by
  obtain ⟨c', hrun, hemptied⟩ := Controller.run_handleInterrupt c side f
  refine ⟨_, hrun, ?_, ?_, ?_, hemptied.inten⟩
  · intro ch hch
    have hlane : c'.lane ⟨ch, side.peer⟩ = (c.lane ⟨ch, side.peer⟩).after .acknowledge :=
      hemptied.taken _ rfl hch
    have hexclusive := h.exclusive ⟨ch, side.peer⟩
    constructor
    · exact congrArg LaneState.full hlane
    · refine (congrArg LaneState.ready hlane).trans ?_
      simp [LaneState.after, hexclusive]
  · intro l hl
    have hkept : ¬ (l.source = side.peer ∧ l.channel ∈ c.due side) := by
      rintro ⟨hsource, hdue⟩
      rcases hl with rfl | hnot
      · exact Side.peer_ne _ hsource.symm
      · exact hnot hdue
    constructor
    · exact hemptied.kept l hkept
    · rw [Controller.flagged_clear_ackBits, hemptied.flagged hkept]
  · intro i
    rw [Controller.hasBit_clear_ackBits, hemptied.own, Controller.forall_due_bit_ne, and_assoc,
      ← not_or, ← and_or_left]

lemma one_lt_channelCount : 1 < channelCount := by decide

/-- Two messages wait, one of them on a channel that is not enabled. There is nothing behind the flags
of two other channels, one of which does not exist, and one of two acknowledgements is enabled. -/
def crowded : Controller :=
  let sending : Prog Unit := do
    send ⟨0, channelCount_pos⟩ (.replicate 4 1)
    send ⟨1, one_lt_channelCount⟩ (.replicate 4 2)
  let sent := (sending.run (Controller.handler .rt) .fresh).2
  ((write .inten 0x10205).run (Controller.handler .app) (sent.raiseSpurious .app 0x30204)).2

/-- Of all that waits the handler takes what is enabled and exists. -/
theorem handleInterrupt_drains_crowded : crowded.Reachable ∧
    ∃ c', (handleInterrupt fun ch msg => pure (ch.val, msg)).run (Controller.handler .app) crowded =
        (.ok ([(0, .replicate 4 1)], 1), c') ∧
      c'.intsts.get .app = 0x20202 := by
  have hreachable : crowded.Reachable :=
    ((Controller.Reachable.fresh.run _ _).raiseSpurious _ _).run _ _
  refine ⟨hreachable, ?_⟩
  obtain ⟨c', hrun, -, -, hflags, -⟩ :=
    handleInterrupt_drains hreachable .app fun ch msg => (ch.val, msg)
  have hdelivered : (crowded.waiting .app (crowded.due .app)).map (fun m => (m.1.val, m.2)) =
      [(0, .replicate 4 1)] := by
    decide
  have hacked : crowded.pending .app >>> ackShift = 1 := by decide
  rw [hdelivered, hacked] at hrun
  refine ⟨c', hrun, ?_⟩
  rw [ext_hasBit]
  intro i
  rw [Bool.eq_iff_iff, hflags]
  revert i
  decide

end Intercore.Mailbox
