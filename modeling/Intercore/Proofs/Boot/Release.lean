import Intercore.Proofs.Boot.Destination

/-!
# What a release boots

Images may be loaded several times before the core is let go. Loading reads back what it copied, but
an image that fails this leaves the state as it is, although the image before it is gone.

So a release boots an image that was verified, unless the last one that was copied was not. This is
then known from the outcome of loading it.
-/

namespace Intercore.Boot

/-- What a caller does with the core. -/
inductive Operation
  | load (image : ByteArray)
  | release
  | waitRunning (attempts : Nat)
  | hold

/-- The step of an operation. -/
def Operation.step (destination : Buffer) (c : SecondaryCore) : Operation → Step
  | load image => c.loadImage image destination
  | release => c.release
  | waitRunning attempts => c.waitRunning attempts
  | hold => c.hold

/-- The operations so far and their outcomes, oldest first. -/
abbrev Log := List (Operation × Except BootError Unit)

/-- The image that an operation copied, if it did, with the outcome of loading it. -/
def copy? : Operation × Except BootError Unit → Option (ByteArray × Except BootError Unit)
  | (.load image, outcome) => if SecondaryCore.copied outcome then some (image, outcome) else none
  | _ => none

/-- The last image that was copied, with the outcome of loading it. -/
def lastCopy (log : Log) : Option (ByteArray × Except BootError Unit) :=
  (log.filterMap copy?).getLast?

/-- Whether an image is loaded after one more operation. To put the core into reset drops it. -/
def loadedAfter (loaded : Bool) : Operation × Except BootError Unit → Bool
  | (.load _, .ok ()) => true
  | (.hold, .ok ()) => false
  | _ => loaded

/-- Whether an image was loaded since the core was last put into reset. -/
def loadedSinceHold (log : Log) : Bool := log.foldl loadedAfter false

variable {σ ε : Type}

/-- The states that can be reached with read-back switched on and a destination at `addr`. Between two
operations anything may happen to the surroundings, except to the destination. -/
inductive Reached (H : Handler Request σ ε) (addr : UInt64) (view : σ → ByteArray) :
    SecondaryCore → σ → Log → Prop
  | start (flag : BootFlag) (releaseSpin : Nat) (s : σ) :
      Reached H addr view ⟨.heldInReset, flag, true, releaseSpin⟩ s []
  | operate {c c' : SecondaryCore} {s s' : σ} {log : Log} {outcome : Except BootError Unit}
      (op : Operation) (before : Reached H addr view c s log)
      (run : (op.step ⟨addr, (view s).size⟩ c).run H s = (.ok (outcome, c'), s')) :
      Reached H addr view c' s' (log ++ [(op, outcome)])
  | elsewhere {c : SecondaryCore} {s s' : σ} {log : Log} (before : Reached H addr view c s log)
      (same : view s' = view s) : Reached H addr view c s' log

@[simp] lemma lastCopy_append (log : Log) (e : Operation × Except BootError Unit) :
    lastCopy (log ++ [e]) = (copy? e).or (lastCopy log) := by
  cases h : copy? e <;> simp [lastCopy, h]

@[simp] lemma loadedSinceHold_append (log : Log) (e : Operation × Except BootError Unit) :
    loadedSinceHold (log ++ [e]) = loadedAfter (loadedSinceHold log) e := by
  simp [loadedSinceHold]

/-- What holds of the core, the destination and the log. -/
structure Sound (c : SecondaryCore) (v : ByteArray) (log : Log) : Prop where
  verify : c.verify = true
  loaded : c.state = .imageLoaded → loadedSinceHold log = true ∧ (lastCopy log).isSome
  told : ∀ image outcome, lastCopy log = some (image, outcome) →
    SecondaryCore.Told image v outcome

namespace Sound

variable {c c' : SecondaryCore} {v v' : ByteArray} {log : Log} {outcome : Except BootError Unit}

/-- A step that copies nothing and loads nothing. -/
lemma leave (h : Sound c v log) {e : Operation × Except BootError Unit} (hcopy : copy? e = none)
    (hleaves : c.Leaves v c' v')
    (hloaded : c'.state = .imageLoaded →
      loadedAfter (loadedSinceHold log) e = loadedSinceHold log) :
    Sound c' v' (log ++ [e]) := by
  obtain ⟨rfl, hverify, hstate⟩ := hleaves
  refine ⟨hverify.trans h.verify, ?_, ?_⟩
  · intro hc
    rw [loadedSinceHold_append, lastCopy_append, hcopy, hloaded hc]
    exact h.loaded (hstate hc)
  · rw [lastCopy_append, hcopy]
    exact h.told

/-- A load that copied its image. What its outcome tells is all that is known of the destination. -/
lemma copy (h : Sound c v log) {image : ByteArray} (hverify : c'.verify = true)
    (hsame : outcome ≠ .ok () → c' = c) (hcopied : SecondaryCore.copied outcome = true)
    (htold : SecondaryCore.Told image v' outcome) :
    Sound c' v' (log ++ [(.load image, outcome)]) := by
  have hcopy : copy? (.load image, outcome) = some (image, outcome) := if_pos hcopied
  refine ⟨hverify, ?_, ?_⟩
  · intro hc
    rw [loadedSinceHold_append, lastCopy_append, hcopy]
    refine ⟨?_, rfl⟩
    cases outcome with
    | ok u => rfl
    | error e =>
      rw [hsame nofun] at hc
      exact (h.loaded hc).1
  · intro image' outcome' hlast
    rw [lastCopy_append, hcopy] at hlast
    cases hlast
    exact htold

lemma operate (h : Sound c v log) (addr : UInt64) (op : Operation) :
    (op.step ⟨addr, v.size⟩ c).Keeps destination
      (fun result v' => Sound result.2 v' (log ++ [(op, result.1)])) v := by
  cases op with
  | load image =>
    apply (SecondaryCore.keeps_loadImage h.verify addr).mono
    rintro ⟨outcome, c'⟩ v' ⟨hverify, hsame, hdone⟩
    cases hcopied : SecondaryCore.copied outcome with
    | true =>
      rw [hcopied, if_pos rfl] at hdone
      exact h.copy hverify hsame hcopied hdone
    | false =>
      rw [hcopied, if_neg nofun] at hdone
      have hne : outcome ≠ .ok () := by
        rintro rfl
        cases hcopied
      obtain rfl : c' = c := hsame hne
      have hcopy : copy? (.load image, outcome) = none := if_neg (by simp [hcopied])
      apply h.leave hcopy ⟨hdone, rfl, id⟩
      intro _
      cases outcome with
      | ok u => exact absurd rfl hne
      | error e => rfl
  | release =>
    apply SecondaryCore.keeps_release.mono
    rintro ⟨outcome, c'⟩ v' ⟨hleaves, -⟩
    apply h.leave rfl hleaves
    intro _
    rfl
  | waitRunning attempts =>
    apply (SecondaryCore.keeps_waitRunning attempts).mono
    rintro ⟨outcome, c'⟩ v' hleaves
    apply h.leave rfl hleaves
    intro _
    rfl
  | hold =>
    apply SecondaryCore.keeps_hold.mono
    rintro ⟨outcome, c'⟩ v' ⟨hleaves, hheld⟩
    apply h.leave rfl hleaves
    intro hc
    cases outcome with
    | error e => rfl
    | ok u =>
      rw [hheld rfl] at hc
      cases hc

end Sound

variable {H : Handler Request σ ε} {addr : UInt64} {view : σ → ByteArray} {c c' : SecondaryCore}
  {s s' : σ} {log : Log}

lemma Reached.sound (hH : destination.HonouredBy H view) (h : Reached H addr view c s log) :
    Sound c (view s) log := by
  induction h with
  | start flag releaseSpin s => exact ⟨rfl, nofun, nofun⟩
  | operate op before run ih => exact (ih.operate addr op).run hH run
  | elsewhere before same ih => rwa [same]

/-- A release is successful only if an image was loaded since the core was last put into reset. The
destination then holds the last image that was copied, and loading it was successful, unless that
image failed to be verified. In that case the destination does not hold it. -/
theorem release_boots_last_copy (hH : destination.HonouredBy H view)
    (h : Reached H addr view c s log)
    (hrelease : c.release.run H s = (.ok (.ok (), c'), s')) :
    loadedSinceHold log = true ∧ ∃ image outcome, lastCopy log = some (image, outcome) ∧
      (outcome = .ok () ∧ Holds image (view s') ↔
        ∀ offset, outcome ≠ .error (.verifyFailed offset)) ∧
      ∀ offset, outcome = .error (.verifyFailed offset) → DiffersAt image (view s') offset := by
  have hsound := h.sound hH
  obtain ⟨⟨hsame, -⟩, hstate⟩ := SecondaryCore.keeps_release.run hH hrelease
  obtain ⟨hloaded, hcopied⟩ := hsound.loaded (hstate rfl)
  obtain ⟨⟨image, outcome⟩, hlast⟩ := Option.isSome_iff_exists.mp hcopied
  have htold := hsound.told image outcome hlast
  rw [← show view s' = view s from hsame] at htold
  refine ⟨hloaded, image, outcome, hlast, ?_, ?_⟩
  · match outcome, htold with
    | .ok (), hholds => exact ⟨fun _ => nofun, fun _ => ⟨rfl, hholds⟩⟩
    | .error (.verifyFailed offset), _ =>
      constructor
      · rintro ⟨hok, -⟩
        cases hok
      · intro hnot
        exact absurd rfl (hnot offset)
  · rintro offset rfl
    exact htold

/-!
### An image that was not verified

A cache spoils the second image on its way to memory.
-/

/-- The first byte is lost when the cache is written back and dropped for the second time. -/
def losesSecond : Disturbance := .scripted [(2, 0, 0xee)] []

lemma mismatchFrom_single (addr : UInt64) (b : UInt8) : mismatchFrom addr ⟨#[b]⟩ 0 =
    (load addr 0).bind fun r => if r = b then .done none else .done (some 0) := by
  have hend : mismatchFrom addr ⟨#[b]⟩ 1 = .done none := by
    rw [mismatchFrom]
    rfl
  rw [mismatchFrom]
  simp only [hend]
  rfl

/-- Where a destination of one byte is. -/
def single : Buffer := ⟨0x80000000, 1⟩

/-- The machine after `n` images were copied, with what is then in a destination of one byte. -/
def machineAfter (n : Nat) (byte : UInt8) : Machine :=
  { Machine.fresh ⟨single.addr, ⟨#[byte]⟩, 0⟩ .fresh with
    maintained := if n = 0 then [] else [(writeBack single.addr ⟨#[byte]⟩, n)]
    counts := { cleanInvalidate := n } }

/-- The core of the board, with read-back and nothing to spin for. -/
def coreIn (state : CoreState) : SecondaryCore := ⟨state, .board, true, 0⟩

abbrev destinationOf (m : Machine) : ByteArray := m.memory.destination

lemma reached_first : Reached (Machine.handler losesSecond) single.addr destinationOf
    (coreIn .imageLoaded) (machineAfter 1 0x11) [(.load ⟨#[0x11]⟩, .ok ())] := by
  have hload : ((coreIn .heldInReset).loadImage ⟨#[0x11]⟩ single).run
      (Machine.handler losesSecond) (machineAfter 0 0) =
        (.ok (.ok (), coreIn .imageLoaded), machineAfter 1 0x11) := by
    simp only [SecondaryCore.loadImage, mismatchFrom_single]
    rfl
  exact (Reached.start .board 0 (machineAfter 0 0)).operate (.load ⟨#[0x11]⟩) hload

/-- The second one fails to be verified, and still the core is where it may be released. -/
lemma reached_second : Reached (Machine.handler losesSecond) single.addr destinationOf
    (coreIn .imageLoaded) (machineAfter 2 0xee)
    [(.load ⟨#[0x11]⟩, .ok ()), (.load ⟨#[0x22]⟩, .error (.verifyFailed 0))] := by
  have hload : ((coreIn .imageLoaded).loadImage ⟨#[0x22]⟩ single).run
      (Machine.handler losesSecond) (machineAfter 1 0x11) =
        (.ok (.error (.verifyFailed 0), coreIn .imageLoaded), machineAfter 2 0xee) := by
    simp only [SecondaryCore.loadImage, mismatchFrom_single]
    rfl
  exact reached_first.operate (.load ⟨#[0x22]⟩) hload

/-- The core may be let go after either of them. -/
lemma released_after : (∃ m, (coreIn .imageLoaded).release.run
      (Machine.handler losesSecond) (machineAfter 1 0x11) =
        (.ok (.ok (), coreIn .released), m)) ∧
    ∃ m, (coreIn .imageLoaded).release.run
      (Machine.handler losesSecond) (machineAfter 2 0xee) =
        (.ok (.ok (), coreIn .released), m) :=
  ⟨⟨_, rfl⟩, ⟨_, rfl⟩⟩

lemma honours_losesSecond : destination.HonouredBy (Machine.handler losesSecond) destinationOf :=
  Machine.honours (Disturbance.scripted_confined _ _)

/-- An image that failed to be verified is released. -/
theorem unverified_image_released :
    let H := Machine.handler losesSecond
    let log : Log := [(.load ⟨#[0x11]⟩, .ok ()), (.load ⟨#[0x22]⟩, .error (.verifyFailed 0))]
    ∃ c c' m m', Reached H single.addr destinationOf c m log ∧ c.release.run H m = (.ok (.ok (), c'), m') ∧
      lastCopy log = some (⟨#[0x22]⟩, .error (.verifyFailed 0)) ∧
      ¬ Holds ⟨#[0x22]⟩ (destinationOf m') := by
  obtain ⟨-, m, hrelease⟩ := released_after
  have hsame : destinationOf m = destinationOf (machineAfter 2 0xee) :=
    (SecondaryCore.keeps_release.run honours_losesSecond hrelease).1.1
  have hdiffers : DiffersAt ⟨#[0x22]⟩ (destinationOf (machineAfter 2 0xee)) 0 :=
    (reached_second.sound honours_losesSecond).told _ _ rfl
  refine ⟨_, _, _, m, reached_second, hrelease, rfl, ?_⟩
  rw [hsame]
  exact hdiffers.not_holds

/-- After the first load a release boots its image. After the second one it boots something else,
and the outcome of that load says so. -/
theorem release_after_loss :
    ∃ m m', (coreIn .imageLoaded).release.run (Machine.handler losesSecond)
          (machineAfter 1 0x11) = (.ok (.ok (), coreIn .released), m) ∧
        Holds ⟨#[0x11]⟩ (destinationOf m) ∧
      (coreIn .imageLoaded).release.run (Machine.handler losesSecond)
          (machineAfter 2 0xee) = (.ok (.ok (), coreIn .released), m') ∧
        DiffersAt ⟨#[0x22]⟩ (destinationOf m') 0 := by
  obtain ⟨⟨m, hfirst⟩, m', hsecond⟩ := released_after
  obtain ⟨-, image, outcome, hlast, hiff, -⟩ :=
    release_boots_last_copy honours_losesSecond reached_first hfirst
  obtain ⟨-, image', outcome', hlast', -, hdiffers⟩ :=
    release_boots_last_copy honours_losesSecond reached_second hsecond
  cases hlast
  cases hlast'
  exact ⟨m, m', hfirst, (hiff.mpr nofun).2, hsecond, hdiffers 0 rfl⟩

end Intercore.Boot
