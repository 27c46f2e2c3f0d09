import Intercore.Proofs.Boot.Release
import Intercore.Proofs.Reset.Window
import Mathlib.Tactic.ByContra

/-!
# Announcements

The secondary core announces itself in a word that outlives resets, failed releases and earlier boots.
Each release clears the word first. So the core is taken to be running only if it announced itself
since then, and never for what was left over.

The other core may announce itself between any two accesses of the bring-up.
-/

namespace Intercore.Boot

/-- What happens to the boot flag, and how the operations of the bring-up end. -/
inductive Occurrence
  | cleared
  | announced
  | returned (op : Operation) (outcome : Except BootError Unit)

/-- The core was let go. -/
abbrev Occurrence.released : Occurrence := .returned .release (.ok ())

/-- In a log that has the latest first: there was an announcement after the flag was cleared for the
last release that was successful. -/
def AnnouncedSinceRelease (log : List Occurrence) : Prop :=
  ∃ after between before, log = after ++ .released :: (between ++ .cleared :: before) ∧
    .released ∉ after ∧ .cleared ∉ between ∧ (.announced ∈ after ∨ .announced ∈ between)

/-- What a request does to the boot flag: it is cleared or set. -/
def Request.occurrence? : Request → Option Occurrence
  | .storeFlag _ value =>
    if value = 0 then some .cleared else if value = magic then some .announced else none
  | _ => none

/-!
### The boot flag and the log
-/

/-- The boot flag, with what has happened to it. -/
@[ext]
structure FlagView where
  flag : UInt32
  log : List Occurrence

namespace FlagView

/-- The other core announced itself any number of times. -/
inductive Aged : FlagView → FlagView → Prop
  | refl (v : FlagView) : Aged v v
  | announce {v w : FlagView} (before : Aged v w) : Aged v ⟨magic, .announced :: w.log⟩

/-- Since the flag was last cleared, `recent` has happened, and the flag shows it. -/
structure SinceClear (recent : List Occurrence) (v : FlagView) : Prop where
  log : ∃ before, v.log = recent ++ .cleared :: before
  uncleared : .cleared ∉ recent
  quiet : .announced ∉ recent → v.flag = 0
  loud : .announced ∈ recent → v.flag = magic

/-- The flag was cleared. -/
def Cleared (v : FlagView) : Prop := ∃ recent, v.SinceClear recent

/-- The flag was cleared for a release, and this release was successful. -/
def Released (v : FlagView) : Prop :=
  ∃ after between, .released ∉ after ∧ v.SinceClear (after ++ .released :: between)

/-- What an announcement by the other core does not end. -/
def Stable (P : FlagView → Prop) : Prop := ∀ v w, Aged v w → P v → P w

/-- An operation returns. -/
def push (v : FlagView) (e : Occurrence) : FlagView := { v with log := e :: v.log }

variable {v : FlagView} {recent : List Occurrence}

lemma SinceClear.announce (h : v.SinceClear recent) :
    SinceClear (.announced :: recent) ⟨magic, .announced :: v.log⟩ where
  log := by
    obtain ⟨before, hlog⟩ := h.log
    exact ⟨before, congrArg _ hlog⟩
  uncleared := by simpa using h.uncleared
  quiet hnot := absurd List.mem_cons_self hnot
  loud _ := rfl

lemma SinceClear.push (h : v.SinceClear recent) (op : Operation) (outcome : Except BootError Unit) :
    (v.push (.returned op outcome)).SinceClear (.returned op outcome :: recent) where
  log := by
    obtain ⟨before, hlog⟩ := h.log
    exact ⟨before, congrArg _ hlog⟩
  uncleared := by simpa using h.uncleared
  quiet hnot := h.quiet (by simpa using hnot)
  loud hmem := h.loud (by simpa using hmem)

lemma stable_cleared : Stable Cleared := by
  intro v w haged hv
  induction haged with
  | refl => exact hv
  | announce _ ih =>
    obtain ⟨recent, h⟩ := ih
    exact ⟨_, h.announce⟩

lemma stable_released : Stable Released := by
  intro v w haged hv
  induction haged with
  | refl => exact hv
  | announce _ ih =>
    obtain ⟨after, between, hnot, h⟩ := ih
    exact ⟨.announced :: after, between, by simpa using hnot, h.announce⟩

lemma stable_announced : Stable fun v => v.flag = magic := by
  intro v w haged hv
  cases haged with
  | refl => exact hv
  | announce _ => rfl

lemma Stable.and {P R : FlagView → Prop} (hP : Stable P) (hR : Stable R) :
    Stable fun v => P v ∧ R v :=
  fun v w haged h => ⟨hP v w haged h.1, hR v w haged h.2⟩

lemma Cleared.release (h : v.Cleared) : (v.push .released).Released := by
  obtain ⟨recent, h⟩ := h
  exact ⟨[], recent, List.not_mem_nil, h.push .release (.ok ())⟩

lemma Released.push (h : v.Released) {op : Operation} {outcome : Except BootError Unit}
    (hne : Occurrence.returned op outcome ≠ .released) :
    (v.push (.returned op outcome)).Released := by
  obtain ⟨after, between, hnot, h⟩ := h
  exact ⟨_ :: after, between, by simpa [hne.symm] using hnot, h.push op outcome⟩

/-- Two logs can be cut in one way only where something happened last. -/
lemma eq_of_append_cons_eq {α : Type} {a : α} {l₁ l₂ r₁ r₂ : List α} (h₁ : a ∉ l₁) (h₂ : a ∉ l₂)
    (h : l₁ ++ a :: r₁ = l₂ ++ a :: r₂) : l₁ = l₂ ∧ r₁ = r₂ := by
  induction l₁ generalizing l₂ with
  | nil =>
    cases l₂ with
    | nil => exact ⟨rfl, (List.cons.inj h).2⟩
    | cons b l₂ => exact absurd (List.cons.inj h).1 (by simpa using List.ne_of_not_mem_cons h₂)
  | cons b l₁ ih =>
    cases l₂ with
    | nil => exact absurd (List.cons.inj h).1.symm (by simpa using List.ne_of_not_mem_cons h₁)
    | cons c l₂ =>
      obtain ⟨rfl, htail⟩ := List.cons.inj h
      obtain ⟨rfl, rfl⟩ :=
        ih (List.not_mem_of_not_mem_cons h₁) (List.not_mem_of_not_mem_cons h₂) htail
      exact ⟨rfl, rfl⟩

/-- After a release the flag tells whether the core has announced itself. -/
lemma Released.announced_iff (h : v.Released) :
    AnnouncedSinceRelease v.log ↔ v.flag = magic := by
  obtain ⟨after, between, hnot, h⟩ := h
  obtain ⟨before, hlog⟩ := h.log
  have huncleared : .cleared ∉ after ∧ .cleared ∉ between := by simpa using h.uncleared
  constructor
  · rintro ⟨after', between', before', hlog', hnot', huncleared', hmem⟩
    rw [hlog, List.append_assoc, List.cons_append] at hlog'
    obtain ⟨rfl, htail⟩ := eq_of_append_cons_eq hnot hnot' hlog'
    obtain ⟨rfl, rfl⟩ := eq_of_append_cons_eq huncleared.2 huncleared' htail
    apply h.loud
    simpa using hmem
  · intro hflag
    refine ⟨after, between, before, ?_, hnot, huncleared.2, ?_⟩
    · rw [hlog, List.append_assoc, List.cons_append]
    · by_contra hquiet
      have hzero : v.flag = 0 := h.quiet (by simpa using hquiet)
      rw [hflag] at hzero
      exact absurd hzero (by decide)

/-- What a request makes of the flag, by its answer. -/
def After (w : FlagView) : (q : Request) → Intercore.Request.Answer q → FlagView → Prop
  | .storeFlag _ _, _, v' => v' = ⟨0, .cleared :: w.log⟩
  | .loadFlag _, value, v' => value = w.flag ∧ v' = w
  | _, _, v' => v' = w

end FlagView

open FlagView

/-- The other core may announce itself before each request. Of the bring-up it is expected that it
only ever clears the flag. -/
def announcements : Contract Request FlagView where
  allows
    | _, .storeFlag _ value => value = 0
    | _, .reset a => Reset.Served a
    | _, _ => True
  answers v q r v' := ∃ w, Aged v w ∧ w.After q r v'

/-!
### The steps
-/

variable {α : Type} {v : FlagView} {c : SecondaryCore} {I : FlagView → Prop}

/-- A request that has nothing to do with the flag. -/
def SparesFlag : Request → Prop
  | .storeFlag _ _ | .loadFlag _ => False
  | .reset a => Reset.Served a
  | _ => True

lemma keeps_sparesFlag (hI : Stable I) {p : Prog α} (hp : p.All SparesFlag) (hv : I v) :
    p.Keeps announcements (fun _ => I) v := by
  refine hp.keeps hv ?_
  intro q v hq hv
  match q, hq with
  | .reset _, hq =>
    refine ⟨hq, ?_⟩
    rintro _ _ ⟨w, haged, rfl⟩
    exact hI v _ haged hv
  | .maintain _, _ | .copy _ _, _ | .load _ _, _ | .delay _, _ | .wake, _ =>
    refine ⟨trivial, ?_⟩
    rintro _ _ ⟨w, haged, rfl⟩
    exact hI v _ haged hv

lemma keeps_clearFlag (flag : BootFlag) :
    (clearFlag flag).Keeps announcements (fun _ => Cleared) v := by
  refine ⟨rfl, ?_⟩
  rintro _ _ ⟨w, -, rfl⟩
  have hcleared : Cleared ⟨0, .cleared :: w.log⟩ :=
    ⟨[], ⟨w.log, rfl⟩, List.not_mem_nil, fun _ => rfl, nofun⟩
  exact keeps_sparesFlag stable_cleared (p := maintain flag.clean)
    ⟨trivial, fun _ => trivial⟩ hcleared

/-- What looking at the flag tells: that the core has announced itself, and surely so if it had
done this before. -/
def Looks (I : FlagView → Prop) (v : FlagView) (isSet : Bool) (v' : FlagView) : Prop :=
  I v' ∧ (isSet = true → v'.flag = magic) ∧ (v.flag = magic → isSet = true)

lemma keeps_isFlagSet (hI : Stable I) (flag : BootFlag) (hv : I v) :
    (isFlagSet flag).Keeps announcements (Looks I v) v := by
  refine ⟨trivial, ?_⟩
  rintro _ _ ⟨w, haged, rfl⟩
  refine ⟨trivial, ?_⟩
  rintro _ _ ⟨w', haged', rfl, rfl⟩
  refine ⟨hI _ _ haged' (hI _ _ haged hv), of_decide_eq_true, ?_⟩
  intro hflag
  exact decide_eq_true (stable_announced _ _ haged' (stable_announced _ _ haged hflag))

namespace SecondaryCore

lemma keeps_poll (hI : Stable I) (flag : BootFlag) (attempts : Nat) (hv : I v) :
    (poll flag attempts).Keeps announcements (fun isSet v' =>
      I v' ∧ (isSet = true → v'.flag = magic) ∧ (v.flag = magic → 0 < attempts → isSet = true))
      v := by
  induction attempts generalizing v with
  | zero => exact ⟨hv, nofun, nofun⟩
  | succ attempts ih =>
    simp only [poll, Program.bind_eq, Program.pure_eq, Program.keeps_bind]
    apply (keeps_isFlagSet hI flag hv).mono
    rintro isSet v' ⟨hv', hset, hsurely⟩
    cases isSet with
    | true => exact ⟨hv', hset, fun _ _ => rfl⟩
    | false =>
      refine ⟨trivial, ?_⟩
      rintro _ _ ⟨w, haged, rfl⟩
      apply (ih (hI _ _ haged hv')).mono
      rintro isSet' v'' ⟨hv'', hset', -⟩
      exact ⟨hv'', hset', fun hflag => nomatch hsurely hflag⟩

/-- How the state of the core agrees with the flag. -/
def AgreesWithFlag (c : SecondaryCore) (v : FlagView) : Prop :=
  match c.state with
  | .released => v.Released
  | .running => v.Released ∧ v.flag = magic
  | .heldInReset | .imageLoaded => True

lemma agreesWithFlag_stable (c : SecondaryCore) : Stable c.AgreesWithFlag := by
  unfold AgreesWithFlag
  cases c.state with
  | heldInReset | imageLoaded => exact fun _ _ _ _ => trivial
  | released => exact stable_released
  | running => exact stable_released.and stable_announced

lemma AgreesWithFlag.push (h : c.AgreesWithFlag v) {op : Operation}
    {outcome : Except BootError Unit} (hne : Occurrence.returned op outcome ≠ .released) :
    c.AgreesWithFlag (v.push (.returned op outcome)) := by
  unfold AgreesWithFlag at h ⊢
  cases hstate : c.state with
  | heldInReset | imageLoaded => trivial
  | released =>
    rw [hstate] at h
    exact h.push hne
  | running =>
    rw [hstate] at h
    exact ⟨h.1.push hne, h.2⟩

/-- What is to be shown of an operation, when it has returned. -/
def Agreed (op : Operation) (result : Except BootError Unit × SecondaryCore) (v : FlagView) :
    Prop :=
  result.2.AgreesWithFlag (v.push (.returned op result.1))

lemma AgreesWithFlag.failed (h : c.AgreesWithFlag v) (op : Operation) (e : BootError) :
    Agreed op (.error e, c) v :=
  h.push (by simp)

lemma loadImage_agreed (h : c.AgreesWithFlag v) (image : ByteArray) (destination : Buffer) :
    (c.loadImage image destination).Keeps announcements (Agreed (.load image)) v := by
  have hstable := c.agreesWithFlag_stable
  rw [loadImage]
  split
  · exact h.failed _ _
  split
  · exact h.failed _ _
  -- the copy and the maintenance of the cache
  refine ⟨trivial, ?_⟩
  rintro _ _ ⟨w, haged, rfl⟩
  refine ⟨trivial, ?_⟩
  rintro _ _ ⟨w', haged', rfl⟩
  split
  · simp only [Program.bind_eq, Program.pure_eq, Program.done_bind, Program.keeps_bind]
    have hw' := hstable _ _ haged' (hstable _ _ haged h)
    apply (keeps_sparesFlag hstable (mismatchFrom_all (fun _ => trivial) image 0) hw').mono
    intro mismatch v' hv'
    cases mismatch with
    | some offset => exact hv'.failed _ _
    | none => trivial
  · trivial

lemma release_agreed (h : c.AgreesWithFlag v) :
    c.release.Keeps announcements (Agreed .release) v := by
  rw [release]
  split
  · exact h.failed _ _
  rename_i hstate
  have hstate : c.state = .imageLoaded := Decidable.not_not.mp hstate
  simp only [Program.bind_eq, Program.pure_eq, Program.keeps_bind]
  apply (keeps_clearFlag c.flag).mono
  intro _ v hv
  apply (keeps_sparesFlag stable_cleared (onReset_all (Reset.leaveReset_served _)) hv).mono
  intro left v hv
  cases left with
  | error e =>
    have hagrees : c.AgreesWithFlag v := by rw [AgreesWithFlag, hstate]; trivial
    exact hagrees.failed _ _
  | ok u =>
    -- the delay, and then the event
    refine ⟨trivial, ?_⟩
    rintro _ _ ⟨w, haged, rfl⟩
    refine ⟨trivial, ?_⟩
    rintro _ _ ⟨w', haged', rfl⟩
    exact (stable_cleared _ _ haged' (stable_cleared _ _ haged hv)).release

/-- How it ends to wait for a core that was released. -/
structure Waited (c : SecondaryCore) (attempts : Nat) (announced : Prop)
    (result : Except BootError Unit × SecondaryCore) (v : FlagView) : Prop where
  released : v.Released
  running_or_timeout : result = (.ok (), { c with state := .running }) ∧ v.flag = magic ∨
    result = (.error .timeout, c)
  /-- A core that announced itself before it was waited for is not missed. -/
  seen : announced → 0 < attempts → result.1 = .ok ()

lemma waitRunning_waited (hstate : c.state = .released) (hv : v.Released) (attempts : Nat) :
    (c.waitRunning attempts).Keeps announcements (Waited c attempts (v.flag = magic)) v := by
  rw [waitRunning, hstate]
  simp only [Program.bind_eq, Program.pure_eq, Program.keeps_bind]
  apply (keeps_poll stable_released c.flag attempts hv).mono
  rintro isSet v' ⟨hv', hset, hsurely⟩
  cases isSet with
  | true => exact ⟨hv', .inl ⟨rfl, hset rfl⟩, fun _ _ => rfl⟩
  | false =>
    refine ⟨hv', .inr rfl, ?_⟩
    intro hflag hpos
    exact absurd (hsurely hflag hpos) Bool.false_ne_true

lemma waitRunning_agreed (h : c.AgreesWithFlag v) (attempts : Nat) :
    (c.waitRunning attempts).Keeps announcements (Agreed (.waitRunning attempts)) v := by
  cases hstate : c.state with
  | heldInReset | imageLoaded =>
    rw [waitRunning, hstate]
    exact h.failed _ _
  | running =>
    rw [waitRunning, hstate]
    exact h.push (by simp)
  | released =>
    have hv : v.Released := by rwa [AgreesWithFlag, hstate] at h
    apply (waitRunning_waited hstate hv attempts).mono
    rintro _ v' ⟨hv', ⟨rfl, hflag⟩ | rfl, -⟩
    · exact ⟨hv'.push (by simp), hflag⟩
    · have hagrees : c.AgreesWithFlag v' := by rwa [AgreesWithFlag, hstate]
      exact hagrees.failed _ _

lemma hold_agreed (h : c.AgreesWithFlag v) : c.hold.Keeps announcements (Agreed .hold) v := by
  simp only [hold, Program.bind_eq, Program.pure_eq, Program.keeps_bind]
  apply (keeps_sparesFlag c.agreesWithFlag_stable
    (onReset_all (Reset.enterReset_served _)) h).mono
  intro entered v' hv'
  cases entered with
  | error e => exact hv'.failed _ _
  | ok u => trivial

lemma step_agreed (h : c.AgreesWithFlag v) (op : Operation) (destination : Buffer) :
    (op.step destination c).Keeps announcements (Agreed op) v := by
  cases op with
  | load image => exact loadImage_agreed h image destination
  | release => exact release_agreed h
  | waitRunning attempts => exact waitRunning_agreed h attempts
  | hold => exact hold_agreed h

end SecondaryCore

/-!
### The others

Around the bring-up there are those who announce themselves, switch the protection and use the machine
for something else.
-/

/-- What the others do. -/
inductive Deed
  | access (q : Request)
  | setStuck (stuck : Bool)

/-- The others set the flag in no other way than by announcing themselves. -/
def Deed.SparesFlag : Deed → Prop
  | access (.storeFlag _ value) => value = magic
  | _ => True

/-- What the secondary core does to announce itself. -/
def announcing (flag : BootFlag) : List Deed :=
  [.access (.storeFlag flag magic), .access (.maintain flag.clean), .access .wake]

lemma announcing_sparesFlag (flag : BootFlag) : ∀ deed ∈ announcing flag, deed.SparesFlag := by
  simp [announcing, Deed.SparesFlag]

/-- What is in the flag is not changed by the cache. -/
def Disturbance.SparesFlag (d : Disturbance) : Prop := ∀ n op m, (d n op m).flag = m.flag

/-- The machine among the others. -/
structure Scene where
  machine : Machine
  /-- What the others do, each time that it is their turn. -/
  ahead : List (List Deed)
  /-- What has happened, the latest first. -/
  log : List Occurrence

namespace Scene

def access (d : Disturbance) (q : Request) (s : Scene) :
    Except Fault (Intercore.Request.Answer q) × Scene :=
  match Machine.handler d q s.machine with
  | (r, machine) => (r, { s with machine, log := q.occurrence?.toList ++ s.log })

def act (d : Disturbance) (s : Scene) : Deed → Scene
  | .access q => (s.access d q).2
  | .setStuck stuck =>
    { s with machine := { s.machine with controller := { s.machine.controller with stuck } } }

/-- The others have their turn. -/
def others (d : Disturbance) (s : Scene) : Scene :=
  match s.ahead with
  | [] => s
  | deeds :: ahead => deeds.foldl (act d) { s with ahead }

/-- The others have their turn before each access of the bring-up. -/
def handler (d : Disturbance) : Handler Request Scene Fault := fun q s => (s.others d).access d q

def view (s : Scene) : FlagView := ⟨s.machine.memory.flag, s.log⟩

def SparesFlag (s : Scene) : Prop := ∀ deeds ∈ s.ahead, ∀ deed ∈ deeds, deed.SparesFlag

variable {d : Disturbance} {s : Scene}

lemma access_after (hd : d.SparesFlag) {q : Request} (hq : announcements.allows v q)
    (hv : s.view = v) : ∃ r s', s.access d q = (.ok r, s') ∧ v.After q r s'.view ∧
      s'.ahead = s.ahead := by
  subst hv
  match q, hq with
  | .reset a, hq =>
    obtain ⟨r, controller, h⟩ := Reset.Controller.handler_of_served hq s.machine.controller
    refine ⟨r, { s with machine := { s.machine with controller } }, ?_, rfl, rfl⟩
    simp [access, Machine.handler, h, Request.occurrence?]
  | .maintain op, _ =>
    refine ⟨(), _, rfl, ?_, rfl⟩
    exact FlagView.ext (hd _ op s.machine.memory) rfl
  | .storeFlag _ value, hq =>
    obtain rfl : value = 0 := hq
    exact ⟨(), _, rfl, rfl, rfl⟩
  | .loadFlag _, _ => exact ⟨_, _, rfl, ⟨rfl, rfl⟩, rfl⟩
  | .load _ _, _ => exact ⟨_, _, rfl, rfl, rfl⟩
  | .copy _ _, _ | .delay _, _ | .wake, _ => exact ⟨(), _, rfl, rfl, rfl⟩

lemma act_aged (hd : d.SparesFlag) {deed : Deed} (hdeed : deed.SparesFlag) (haged : Aged v s.view) :
    Aged v (s.act d deed).view ∧ (s.act d deed).ahead = s.ahead := by
  match deed, hdeed with
  | .setStuck _, _ => exact ⟨haged, rfl⟩
  | .access (.storeFlag _ value), hdeed =>
    obtain rfl : value = magic := hdeed
    exact ⟨haged.announce, rfl⟩
  | .access (.maintain op), _ =>
    have hview : (s.act d (.access (.maintain op))).view = s.view :=
      FlagView.ext (hd _ op s.machine.memory) rfl
    exact ⟨hview ▸ haged, rfl⟩
  | .access (.reset _), _ | .access (.loadFlag _), _ | .access (.copy _ _), _
  | .access (.load _ _), _ | .access (.delay _), _ | .access .wake, _ => exact ⟨haged, rfl⟩

/-- To announce oneself takes nothing but deeds that spare the flag, and all of them together count as
one announcement. -/
lemma run_announce (d : Disturbance) (flag : BootFlag) (s : Scene) :
    ∃ s', (announce flag).run (access d) s = (.ok (), s') ∧ s' = (announcing flag).foldl (act d) s ∧
      (∀ deed ∈ announcing flag, deed.SparesFlag) ∧ s'.log = .announced :: s.log :=
  ⟨_, rfl, rfl, announcing_sparesFlag flag, rfl⟩

lemma others_aged (hd : d.SparesFlag) (hs : s.SparesFlag) :
    Aged s.view (s.others d).view ∧ (s.others d).SparesFlag := by
  unfold others
  split
  · exact ⟨.refl _, hs⟩
  next deeds ahead hahead =>
    rw [SparesFlag, hahead, List.forall_mem_cons] at hs
    have hrest : ({ s with ahead } : Scene).SparesFlag := hs.2
    refine List.foldlRecOn (motive := fun t : Scene => Aged s.view t.view ∧ t.SparesFlag) deeds _
      ⟨.refl _, hrest⟩ ?_
    intro t ⟨haged, ht⟩ deed hdeed
    obtain ⟨haged', hahead'⟩ := act_aged hd (hs.1 deed hdeed) haged
    exact ⟨haged', by rwa [SparesFlag, hahead']⟩

lemma servedBy (hd : d.SparesFlag) : announcements.ServedBy (handler d)
    fun s v => s.view = v ∧ s.SparesFlag := by
  rintro q s _ ⟨rfl, hs⟩ hq
  obtain ⟨haged, hs'⟩ := others_aged hd hs
  -- which requests are allowed is not up to the view
  have hq' : announcements.allows (s.others d).view q := by
    cases q <;> exact hq
  obtain ⟨r, s', hrun, hafter, hahead⟩ := access_after hd hq' rfl
  exact ⟨r, s', s'.view, hrun, ⟨_, haged, hafter⟩, rfl, by rwa [SparesFlag, hahead]⟩

end Scene

/-!
### Runs
-/

instance : Intercore.Request Operation := ⟨fun _ => Except BootError Unit⟩

/-- The machine among the others, with the core as the bring-up knows it. -/
structure Trial where
  core : SecondaryCore
  scene : Scene

namespace Trial

/-- Does an operation, and notes how it ends. The others have their turn before it too. -/
def handler (d : Disturbance) : Handler Operation Trial Fault := fun op t =>
  let scene := t.scene.others d
  match (op.step scene.machine.memory.buffer t.core).run (Scene.handler d) scene with
  | (.ok (outcome, core), scene) =>
    (.ok outcome, ⟨core, { scene with log := .returned op outcome :: scene.log }⟩)
  | (.error e, scene) => (.error e, { t with scene })

/-- The state of the core agrees with the flag, and goes on to do so. -/
def Sound (t : Trial) : Prop := t.core.AgreesWithFlag t.scene.view ∧ t.scene.SparesFlag

variable {d : Disturbance} {t : Trial} {op : Operation}

/-- What an operation keeps holds of the trial before its return is noted. -/
lemma handler_eq (hd : d.SparesFlag) (hs : t.scene.SparesFlag)
    {post : Except BootError Unit × SecondaryCore → FlagView → Prop}
    (hp : ∀ v destination, Aged t.scene.view v →
      (op.step destination t.core).Keeps announcements post v) :
    ∃ outcome t', handler d op t = (.ok outcome, t') ∧ t'.scene.SparesFlag ∧
      ∃ v, post (outcome, t'.core) v ∧ t'.scene.view = v.push (.returned op outcome) := by
  obtain ⟨haged, hs'⟩ := Scene.others_aged hd hs
  obtain ⟨⟨outcome, core⟩, scene, _, hrun, hpost, rfl, hscene⟩ :=
    (hp _ (t.scene.others d).machine.memory.buffer haged).run_served
      (Scene.servedBy hd) ⟨rfl, hs'⟩
  refine ⟨outcome, ⟨core, { scene with log := .returned op outcome :: scene.log }⟩, ?_, hscene,
    scene.view, hpost, rfl⟩
  simp only [handler, hrun]

lemma handler_sound (hd : d.SparesFlag) (op : Operation) (ht : t.Sound) :
    ∃ outcome t', handler d op t = (.ok outcome, t') ∧ t'.Sound := by
  obtain ⟨outcome, t', hrun, hs, v, hagreed, hview⟩ := handler_eq hd ht.2 fun v destination haged =>
    SecondaryCore.step_agreed (t.core.agreesWithFlag_stable _ _ haged ht.1) op destination
  refine ⟨outcome, t', hrun, ?_, hs⟩
  rw [hview]
  exact hagreed

lemma Sound.released (h : t.Sound) (hstate : t.core.state = .released) : t.scene.view.Released := by
  have hagrees := h.1
  rwa [SecondaryCore.AgreesWithFlag, hstate] at hagrees

lemma Sound.running (h : t.Sound) (hstate : t.core.state = .running) :
    AnnouncedSinceRelease t.scene.log := by
  have hagrees := h.1
  rw [SecondaryCore.AgreesWithFlag, hstate] at hagrees
  exact hagrees.1.announced_iff.mpr hagrees.2

/-- What it comes to, to wait for a core that was released. -/
lemma Sound.wait (hd : d.SparesFlag) (h : t.Sound) (hstate : t.core.state = .released)
    (attempts : Nat) :
    ∃ outcome t', handler d (.waitRunning attempts) t = (.ok outcome, t') ∧
      (¬ AnnouncedSinceRelease t'.scene.log → outcome = .error .timeout ∧ t'.core = t.core) ∧
      (AnnouncedSinceRelease t.scene.log → 0 < attempts → outcome = .ok ()) := by
  have hreleased := h.released hstate
  have hkeeps : ∀ v destination, Aged t.scene.view v →
      ((Operation.waitRunning attempts).step destination t.core).Keeps announcements
        (SecondaryCore.Waited t.core attempts (AnnouncedSinceRelease t.scene.log)) v := by
    intro v _ haged
    have hwaited := SecondaryCore.waitRunning_waited hstate (stable_released _ _ haged hreleased)
      attempts
    apply hwaited.mono
    rintro result v' ⟨hv', hresult, hseen⟩
    refine ⟨hv', hresult, ?_⟩
    intro hannounced
    exact hseen (stable_announced _ _ haged (hreleased.announced_iff.mp hannounced))
  obtain ⟨outcome, t', hrun, -, v, ⟨hv, hresult, hseen⟩, hview⟩ := handler_eq hd h.2 hkeeps
  refine ⟨outcome, t', hrun, ?_, hseen⟩
  intro hnot
  rcases hresult with ⟨hok, hflag⟩ | htimeout
  · -- then the flag was set, and so the core has announced itself
    rw [(Prod.mk.inj hok).1] at hview
    have hreturned : t'.scene.view.Released := hview ▸ hv.push nofun
    exact absurd (hreturned.announced_iff.mpr (hview ▸ hflag)) hnot
  · exact Prod.mk.inj htimeout

end Trial

/-- Start with a core that is held in reset and with anything in the boot flag. Whatever is done, and
whatever the others do meanwhile, the core is taken to be running only if it announced itself since
the flag was cleared for the last successful release. To wait for a core that was released is to no
avail as long as it has not announced itself, and it stays released; if it has done so, one look is
enough. -/
theorem no_stale_announcement {d : Disturbance} (hd : d.SparesFlag) (t : Trial)
    (hstate : t.core.state = .heldInReset) (hothers : t.scene.SparesFlag)
    (operations : Program Operation Unit) :
    ∃ t', operations.run (Trial.handler d) t = (.ok (), t') ∧
      (t'.core.state = .running → AnnouncedSinceRelease t'.scene.log) ∧
      (t'.core.state = .released → ∀ attempts, ∃ outcome t'',
        Trial.handler d (.waitRunning attempts) t' = (.ok outcome, t'') ∧
        (¬ AnnouncedSinceRelease t''.scene.log → outcome = .error .timeout ∧ t''.core = t'.core) ∧
        (AnnouncedSinceRelease t'.scene.log → 0 < attempts → outcome = .ok ())) := by
  have ht : t.Sound := ⟨by rw [SecondaryCore.AgreesWithFlag, hstate]; trivial, hothers⟩
  obtain ⟨_, t', hrun, ht'⟩ :=
    operations.run_of_step (fun op _ ht => Trial.handler_sound hd op ht) ht
  exact ⟨t', hrun, ht'.running, fun hstate => ht'.wait hd hstate⟩

/-- A core whose flag is left over from an earlier boot. The protection does not open until the second
release, and the core announces itself between the first time that it is waited for and the second. -/
def leftOver : Trial where
  core := ⟨.heldInReset, .board, false, 0⟩
  scene := {
    machine := .fresh ⟨0x80000000, ⟨#[0]⟩, magic⟩
      (Reset.Controller.fresh.assertAtPowerOn Reset.Line.rtCore.resetBit).2
    ahead := [.setStuck true] :: List.replicate 10 [] ++
      [.setStuck false] :: List.replicate 16 [] ++ [announcing .board]
    log := [] }

def secondTry : Program Operation Unit :=
  [.load ⟨#[0x11]⟩, .release, .release, .waitRunning 1, .waitRunning 1].foldr
    (fun op p => (Program.request op).bind fun _ => p) (.done ())

theorem no_stale_announcement_leftOver :
    Disturbance.none.SparesFlag ∧ leftOver.core.state = .heldInReset ∧ leftOver.scene.SparesFlag ∧
    ∃ t', secondTry.run (Trial.handler .none) leftOver = (.ok (), t') ∧ t'.core.state = .running ∧
      AnnouncedSinceRelease t'.scene.log := by
  have hnone : Disturbance.none.SparesFlag := fun _ _ _ => rfl
  have hothers : leftOver.scene.SparesFlag := by
    simpa [Scene.SparesFlag, leftOver, Deed.SparesFlag] using announcing_sparesFlag .board
  obtain ⟨t', hrun, hannounced, -⟩ := no_stale_announcement hnone leftOver rfl hothers secondTry
  have hstate : t'.core.state = .running := by
    have hend : (secondTry.run (Trial.handler .none) leftOver).2.core.state = .running := by
      decide +kernel
    rwa [hrun] at hend
  exact ⟨hnone, rfl, hothers, t', hrun, hstate, hannounced hstate⟩

end Intercore.Boot
