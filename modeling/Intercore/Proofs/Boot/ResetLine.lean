import Intercore.Proofs.Boot.Release
import Intercore.Proofs.Reset.Window

/-!
# The state and the reset line

The bring-up keeps a state of its own, and whether the secondary core runs is up to its reset line.
The two never disagree, although the registers with the line are shared with other blocks and the
protection may refuse to open at any time.

A step that fails changes nothing, and a step that is successful makes one of few transitions.
-/

namespace Intercore.Boot

open Reset (Controller)

/-- The surroundings answer accesses to the system controller as it does, and nothing else makes a
change to it. -/
def lines : Contract Request Controller where
  allows
    | c, .reset a => ∃ r c', Controller.handler a c = (.ok r, c')
    | _, _ => True
  answers
    | c, .reset a, r, c' => Controller.handler a c = (.ok r, c')
    | c, _, _, c' => c' = c

/-- What becomes of the state when an operation is successful. -/
inductive Transition : Operation → CoreState → CoreState → Prop
  | load (image : ByteArray) : Transition (.load image) .heldInReset .imageLoaded
  /-- An image may be replaced by another one. -/
  | reload (image : ByteArray) : Transition (.load image) .imageLoaded .imageLoaded
  | release : Transition .release .imageLoaded .released
  | started (attempts : Nat) : Transition (.waitRunning attempts) .released .running
  | running (attempts : Nat) : Transition (.waitRunning attempts) .running .running
  | hold (state : CoreState) : Transition .hold state .heldInReset

/-- Whether a core in this state is thought to be held by its reset line. -/
def CoreState.isHeld : CoreState → Bool
  | heldInReset | imageLoaded => true
  | released | running => false

/-- How an operation may end. If the state agreed with the line, it still does. -/
def Ends (op : Operation) (c : SecondaryCore) (v : Controller)
    (result : Except BootError Unit × SecondaryCore) (v' : Controller) : Prop :=
  match result.1 with
  | .ok () => Transition op c.state result.2.state ∧
      (v.holds .rtCore = c.state.isHeld → v'.holds .rtCore = result.2.state.isHeld)
  | .error _ => result.2 = c ∧ v'.iprst = v.iprst

/-!
### The steps
-/

variable {α : Type} {c : SecondaryCore} {v : Controller}

/-- A request that has nothing to do with the system controller. -/
def NoReset : Request → Prop
  | .reset _ => False
  | _ => True

lemma keeps_noReset {p : Prog α} (hp : p.All NoReset) :
    p.Keeps lines (fun _ v' => v' = v) v := by
  refine hp.keeps rfl ?_
  rintro q _ hq rfl
  match q, hq with
  | .maintain _, _ | .storeFlag _ _, _ | .loadFlag _, _ | .copy _ _, _ | .load _ _, _
  | .delay _, _ | .wake, _ => exact ⟨trivial, fun _ _ hv' => hv'⟩

lemma setFlag_noReset (flag : BootFlag) (value : UInt32) : (setFlag flag value).All NoReset :=
  setFlag_all trivial trivial

lemma announce_noReset (flag : BootFlag) : (announce flag).All NoReset :=
  Program.all_bind (setFlag_noReset flag magic) fun _ => ⟨trivial, fun _ => trivial⟩

lemma poll_noReset (flag : BootFlag) (attempts : Nat) :
    (SecondaryCore.poll flag attempts).All NoReset :=
  poll_all (isFlagSet_all trivial trivial) trivial attempts

/-- A program of the system controller runs on the machine as it does by itself. -/
lemma keeps_onReset {p : Reset.Prog α} {a : α} {v' : Controller} {post : α → Controller → Prop}
    (hrun : p.run Controller.handler v = (.ok a, v')) (hpost : post a v') :
    (onReset p).Keeps lines post v := by
  induction p generalizing v with
  | done b =>
    cases hrun
    exact hpost
  | ask q next ih =>
    rw [Program.run] at hrun
    split at hrun
    next r w hq =>
      refine ⟨⟨r, w, hq⟩, ?_⟩
      intro r' w' hq'
      obtain ⟨hr, rfl⟩ := Prod.mk.inj (hq.symm.trans hq')
      cases hr
      exact ih r hrun
    next => cases hrun

/-- A program that rewrites the register of a line does so on the machine too, or fails. -/
lemma keeps_rewrites {p : Reset.Prog (Except Reset.ResetError Unit)} {l : Reset.Line}
    {value : UInt32} (hp : Reset.Rewrites p l value v) :
    (onReset p).Keeps lines (fun r v' =>
      match r with
      | .ok () => Reset.Rewritten v l value v'
      | .error _ => v'.iprst = v.iprst) v := by
  obtain ⟨r, v', hrun, hpost⟩ := hp
  exact keeps_onReset hrun hpost

namespace SecondaryCore

lemma loadImage_ends (image : ByteArray) (destination : Buffer) :
    (c.loadImage image destination).Keeps lines (Ends (.load image) c v) v := by
  rw [loadImage]
  split
  · exact ⟨rfl, rfl⟩
  split
  · exact ⟨rfl, rfl⟩
  rename_i hstate _
  have hok : Ends (.load image) c v (.ok (), { c with state := .imageLoaded }) v := by
    cases hc : c.state with
    | heldInReset => exact ⟨hc ▸ .load image, hc ▸ id⟩
    | imageLoaded => exact ⟨hc ▸ .reload image, hc ▸ id⟩
    | released | running => simp [hc] at hstate
  -- the copy and the maintenance of the cache
  refine ⟨trivial, ?_⟩
  rintro _ _ rfl
  refine ⟨trivial, ?_⟩
  rintro _ _ rfl
  split
  · simp only [Program.bind_eq, Program.pure_eq, Program.done_bind, Program.keeps_bind]
    apply (keeps_noReset (mismatchFrom_all (fun _ => trivial) image 0)).mono
    rintro mismatch _ rfl
    cases mismatch with
    | some offset => exact ⟨rfl, rfl⟩
    | none => exact hok
  · exact hok

lemma release_ends : c.release.Keeps lines (Ends .release c v) v := by
  rw [release]
  split
  · exact ⟨rfl, rfl⟩
  rename_i hstate
  have hstate : c.state = .imageLoaded := Decidable.not_not.mp hstate
  simp only [Program.bind_eq, Program.pure_eq, Program.keeps_bind]
  apply (keeps_noReset (setFlag_noReset c.flag 0)).mono
  rintro _ _ rfl
  apply (keeps_rewrites (Reset.leaveReset_rewrites .rtCore _)).mono
  intro left v' hleft
  cases left with
  | error e => exact ⟨rfl, hleft⟩
  | ok u =>
    -- the delay, and then the event
    refine ⟨trivial, ?_⟩
    rintro _ _ rfl
    refine ⟨trivial, ?_⟩
    rintro _ _ rfl
    exact ⟨hstate ▸ .release, fun _ => hleft.not_holds⟩

lemma waitRunning_ends (attempts : Nat) :
    (c.waitRunning attempts).Keeps lines (Ends (.waitRunning attempts) c v) v := by
  rw [waitRunning]
  cases hstate : c.state with
  | heldInReset | imageLoaded => exact ⟨rfl, rfl⟩
  | running => exact ⟨hstate ▸ .running attempts, id⟩
  | released =>
    simp only [Program.bind_eq, Program.pure_eq, Program.keeps_bind]
    apply (keeps_noReset (poll_noReset c.flag attempts)).mono
    rintro isSet _ rfl
    cases isSet with
    | true => exact ⟨hstate ▸ .started attempts, hstate ▸ id⟩
    | false => exact ⟨rfl, rfl⟩

lemma hold_ends : c.hold.Keeps lines (Ends .hold c v) v := by
  simp only [hold, Program.bind_eq, Program.pure_eq, Program.keeps_bind]
  apply (keeps_rewrites (Reset.enterReset_rewrites .rtCore v)).mono
  intro entered v' hentered
  cases entered with
  | error e => exact ⟨rfl, hentered⟩
  | ok u => exact ⟨.hold c.state, fun _ => hentered.holds⟩

lemma step_ends (op : Operation) (destination : Buffer) :
    (op.step destination c).Keeps lines (Ends op c v) v := by
  cases op with
  | load image => exact loadImage_ends image destination
  | release => exact release_ends
  | waitRunning attempts => exact waitRunning_ends attempts
  | hold => exact hold_ends

end SecondaryCore

/-!
### Runs
-/

/-- The blocks whose reset lines are pulled by their own drivers. -/
inductive Peripheral
  | semaphores
  | mailboxes
  deriving DecidableEq, Repr

def Peripheral.line : Peripheral → Reset.Line
  | semaphores => .semaphores
  | mailboxes => .mailboxes

/-- Their lines are in another register than that of the core. -/
lemma Peripheral.register_ne (p : Peripheral) :
    p.line.resetBit.register ≠ Reset.Line.rtCore.resetBit.register := by
  cases p <;> decide

/-- What may be done on the board. -/
inductive Action
  | operate (op : Operation)
  | announce
  | enterReset (p : Peripheral)
  | leaveReset (p : Peripheral)
  /-- This is also how a peripheral is initialised. -/
  | pulseReset (p : Peripheral)
  /-- Writes a word to the protection register by hand. -/
  | writeReglctl (word : UInt32)
  | setStuck (stuck : Bool)
  /-- Anything happens to the memory, or images go elsewhere from now on. -/
  | setMemory (memory : Memory)

abbrev Action.Answer : Action → Type
  | operate _ => Except BootError Unit
  | enterReset _ | leaveReset _ | pulseReset _ => Except Reset.ResetError Unit
  | _ => Unit

instance : Intercore.Request Action := ⟨Action.Answer⟩

/-- The machine, with the core as the bring-up knows it. -/
structure Bench where
  core : SecondaryCore
  machine : Machine

namespace Bench

/-- Runs a program that may change what is known of the core. -/
def perform (b : Bench) (d : Disturbance) (p : Prog (α × SecondaryCore)) : Except Fault α × Bench :=
  match p.run (Machine.handler d) b.machine with
  | (.ok (a, core), machine) => (.ok a, ⟨core, machine⟩)
  | (.error e, machine) => (.error e, { b with machine })

/-- Runs a program that has nothing to do with the core. -/
def performAside (b : Bench) (d : Disturbance) (p : Prog α) : Except Fault α × Bench :=
  b.perform d do return (← p, b.core)

/-- Does an action, with a cache that does to the memory what it likes. -/
def handler (d : Disturbance) : Handler Action Bench Fault
  | .operate op, b => b.perform d (op.step b.machine.memory.buffer b.core)
  | .announce, b => b.performAside d (announce b.core.flag)
  | .enterReset p, b => b.performAside d (onReset (Reset.enterReset p.line))
  | .leaveReset p, b => b.performAside d (onReset (Reset.leaveReset p.line))
  | .pulseReset p, b => b.performAside d (onReset (Reset.pulseReset p.line))
  | .writeReglctl word, b => b.performAside d (onReset (Reset.write .reglctl word))
  | .setStuck stuck, b =>
    (.ok (), { b with machine := { b.machine with
      controller := { b.machine.controller with stuck } } })
  | .setMemory memory, b => (.ok (), { b with machine := { b.machine with memory } })

/-- What an action may do, by its answer. An operation that failed has changed neither the state
nor a reset register, and nothing but an operation changes the state. -/
def Effect (b b' : Bench) : (a : Action) → Intercore.Request.Answer a → Prop
  | .operate op, .ok () => Transition op b.core.state b'.core.state
  | .operate _, .error _ =>
    b'.core = b.core ∧ b'.machine.controller.iprst = b.machine.controller.iprst
  | _, _ => b'.core = b.core

/-- The state of the core agrees with its reset line. -/
def Agrees (b : Bench) : Prop := b.machine.controller.holds .rtCore = b.core.state.isHeld

lemma servedBy (d : Disturbance) :
    lines.ServedBy (Machine.handler d) fun m v => m.controller = v := by
  rintro q m _ rfl hallow
  match q, hallow with
  | .reset a, ⟨r, c', h⟩ => exact ⟨r, { m with controller := c' }, c', by simp [Machine.handler, h], h, rfl⟩
  | .maintain _, _ | .storeFlag _ _, _ | .loadFlag _, _ | .copy _ _, _ | .load _ _, _ | .delay _, _
  | .wake, _ => exact ⟨_, _, m.controller, rfl, rfl, rfl⟩

variable {b : Bench}

lemma perform_eq (d : Disturbance) {p : Prog (α × SecondaryCore)}
    {post : α × SecondaryCore → Controller → Prop}
    (hp : p.Keeps lines post b.machine.controller) :
    ∃ a b', b.perform d p = (.ok a, b') ∧ post (a, b'.core) b'.machine.controller := by
  obtain ⟨⟨a, core⟩, machine, _, hrun, hpost, rfl⟩ := hp.run_served (servedBy d) rfl
  exact ⟨a, ⟨core, machine⟩, by rw [perform, hrun], hpost⟩

lemma performAside_eq (d : Disturbance) {p : Prog α} {post : α → Controller → Prop}
    (hp : p.Keeps lines post b.machine.controller) :
    ∃ a b', b.performAside d p = (.ok a, b') ∧ b'.core = b.core ∧
      post a b'.machine.controller := by
  have haside : (do return (← p, b.core) : Prog (α × SecondaryCore)).Keeps lines
      (fun r v => r.2 = b.core ∧ post r.1 v) b.machine.controller := by
    simp only [Program.bind_eq, Program.pure_eq, Program.keeps_bind]
    apply hp.mono
    intro a v ha
    exact ⟨rfl, ha⟩
  exact perform_eq d haside

/-- What has to be shown of an action. -/
def Steps (d : Disturbance) (b : Bench) (a : Action) : Prop :=
  ∃ r b', handler d a b = (.ok r, b') ∧ b.Effect b' a r ∧ (b.Agrees → b'.Agrees)

lemma steps_operate (d : Disturbance) (op : Operation) : b.Steps d (.operate op) := by
  obtain ⟨r, b', hrun, hends⟩ := perform_eq d (SecondaryCore.step_ends op _)
  refine ⟨r, b', hrun, ?_⟩
  cases r with
  | ok u => exact hends
  | error e =>
    obtain ⟨hcore, hiprst⟩ : b'.core = b.core ∧ _ := hends
    refine ⟨⟨hcore, hiprst⟩, ?_⟩
    intro hagrees
    rw [Agrees, hcore, Controller.holds_congr hiprst]
    exact hagrees

/-- A program that leaves the line of the core alone. -/
lemma steps_aside (d : Disturbance) {p : Prog α} {post : α → Controller → Prop}
    (hp : p.Keeps lines post b.machine.controller)
    (hline : ∀ a v', post a v' → v'.holds .rtCore = b.machine.controller.holds .rtCore) :
    ∃ a b', b.performAside d p = (.ok a, b') ∧ b'.core = b.core ∧ (b.Agrees → b'.Agrees) := by
  obtain ⟨a, b', hrun, hcore, hpost⟩ := performAside_eq d hp
  refine ⟨a, b', hrun, hcore, ?_⟩
  intro hagrees
  rw [Agrees, hcore, hline a _ hpost]
  exact hagrees

lemma steps_rewrites (d : Disturbance) {p : Reset.Prog (Except Reset.ResetError Unit)}
    {peripheral : Peripheral} {value : UInt32}
    (hp : Reset.Rewrites p peripheral.line value b.machine.controller) :
    ∃ a b', b.performAside d (onReset p) = (.ok a, b') ∧ b'.core = b.core ∧
      (b.Agrees → b'.Agrees) := by
  apply steps_aside d (keeps_rewrites hp)
  intro r v' hr
  cases r with
  | ok u => exact hr.holds_other peripheral.register_ne
  | error e => exact Controller.holds_congr hr .rtCore

lemma steps (d : Disturbance) (b : Bench) (a : Action) : b.Steps d a := by
  cases a with
  | operate op => exact steps_operate d op
  | announce =>
    have hkeeps := keeps_noReset (v := b.machine.controller) (announce_noReset b.core.flag)
    exact steps_aside d hkeeps fun _ _ h => by rw [h]
  | enterReset p => exact steps_rewrites d (Reset.enterReset_rewrites p.line _)
  | leaveReset p => exact steps_rewrites d (Reset.leaveReset_rewrites p.line _)
  | pulseReset p => exact steps_rewrites d (Reset.pulseReset_rewrites p.line _)
  | writeReglctl word =>
    have hp : (onReset (Reset.write .reglctl word)).Keeps lines
        (fun _ v' => v'.iprst = b.machine.controller.iprst) b.machine.controller :=
      keeps_onReset rfl (Controller.iprst_writeReglctl _ word)
    exact steps_aside d hp fun _ _ h => Controller.holds_congr h .rtCore
  | setStuck stuck => exact ⟨(), _, rfl, rfl, id⟩
  | setMemory memory => exact ⟨(), _, rfl, rfl, id⟩

end Bench

/-- Start with a core that is held in reset, and do anything to it and around it: no action is cut
short, the core is thought to be held exactly when its reset line is pulled, an operation that fails
leaves the state and all reset registers alone, and one that is successful makes a transition. -/
theorem state_follows_line (d : Disturbance) (b : Bench) (hstate : b.core.state = .heldInReset)
    (hline : b.machine.controller.holds .rtCore = true) (actions : Program Action Unit) :
    ∃ b' held, actions.run (Bench.handler d) b = (.ok (), b') ∧
      (Reset.inReset .rtCore).run Controller.handler b'.machine.controller =
        (.ok held, b'.machine.controller) ∧
      (held = true ↔ b'.core.state = .heldInReset ∨ b'.core.state = .imageLoaded) ∧
      ∀ a, ∃ r b'', Bench.handler d a b' = (.ok r, b'') ∧ b'.Effect b'' a r := by
  have hagrees : b.Agrees := by rw [Bench.Agrees, hline, hstate]; rfl
  have hstep : ∀ a b, Bench.Agrees b → ∃ r b', Bench.handler d a b = (.ok r, b') ∧ b'.Agrees := by
    intro a b hb
    obtain ⟨r, b', hrun, -, hb'⟩ := Bench.steps d b a
    exact ⟨r, b', hrun, hb' hb⟩
  obtain ⟨_, b', hrun, hb'⟩ := actions.run_of_step hstep hagrees
  refine ⟨b', b'.machine.controller.holds .rtCore, hrun, Reset.run_inReset _ _, ?_, ?_⟩
  · rw [hb']
    cases b'.core.state <;> simp [CoreState.isHeld]
  · intro a
    obtain ⟨r, b'', hrun, heffect, -⟩ := Bench.steps d b' a
    exact ⟨r, b'', hrun, heffect⟩

/-- A board as it comes out of power-on, with room for an image of one byte. -/
def powerOn : Bench where
  core := ⟨.heldInReset, .board, false, 0⟩
  machine := .fresh ⟨0x80000000, ⟨#[0]⟩, 0⟩
    (Controller.fresh.assertAtPowerOn Reset.Line.rtCore.resetBit).2

/-- The protection refuses to open at first, and is left half open by someone else. -/
def bringUp : Program Action Unit :=
  [.operate (.load ⟨#[0x11]⟩), .setStuck true, .operate .release, .writeReglctl 0x59,
    .setStuck false, .operate .release, .pulseReset .semaphores, .announce,
    .operate (.waitRunning 1)].foldr (fun a p => (Program.request a).bind fun _ => p) (.done ())

theorem state_follows_line_bringUp :
    powerOn.core.state = .heldInReset ∧ powerOn.machine.controller.holds .rtCore = true ∧
    ∃ b', bringUp.run (Bench.handler .none) powerOn = (.ok (), b') ∧ b'.core.state = .running ∧
      (Reset.inReset .rtCore).run Controller.handler b'.machine.controller =
        (.ok false, b'.machine.controller) := by
  have hline : powerOn.machine.controller.holds .rtCore = true := by decide +kernel
  refine ⟨rfl, hline, ?_⟩
  obtain ⟨b', held, hrun, hheld, hiff, -⟩ := state_follows_line .none powerOn rfl hline bringUp
  have hstate : b'.core.state = .running := by
    have hend : (bringUp.run (Bench.handler .none) powerOn).2.core.state = .running := by
      decide +kernel
    rwa [hrun] at hend
  refine ⟨b', hrun, hstate, ?_⟩
  have hfree : held = false := by simpa [hstate] using hiff
  rwa [hfree] at hheld

end Intercore.Boot
