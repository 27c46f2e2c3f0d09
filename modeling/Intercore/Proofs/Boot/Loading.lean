import Intercore.Proofs.Boot.Destination
import Mathlib.Order.Bounds.Basic

/-!
# Loading an image

What becomes of the destination and of the core when an image is loaded, whatever the cache does to the
image on its way to memory.

A load that is refused does nothing at all. Otherwise nothing behind the image is ever changed, and with
read-back the outcome says exactly how the memory differs from the image once the cache was maintained.
-/

namespace Intercore

/-- A handler that keeps, newest first, the states that its answers left behind. -/
def Handler.watching {Q σ ε : Type} [Request Q] (h : Handler Q σ ε) : Handler Q (σ × List σ) ε :=
  fun q s => ((h q s.1).1, (h q s.1).2, (h q s.1).2 :: s.2)

namespace Boot

/-!
### Memory behind the image
-/

namespace AltersOnly

variable {length : Nat} {v v' v'' : ByteArray}

lemma trans (h : AltersOnly length v v') (h' : AltersOnly length v' v'') : AltersOnly length v v'' :=
  ⟨h'.1.trans h.1, h'.2.trans h.2⟩

lemma mono {length' : Nat} (h : AltersOnly length v v') (hle : length ≤ length') :
    AltersOnly length' v v' := by
  obtain ⟨more, rfl⟩ := Nat.exists_eq_add_of_le hle
  refine ⟨h.1, ?_⟩
  rw [← List.drop_drop, ← List.drop_drop, h.2]

lemma copy {m : Memory} {image : ByteArray} (hroom : image.size ≤ m.destination.size) :
    AltersOnly image.size m.destination (m.copy image).destination := by
  have hlist := m.toList_copy image
  constructor
  · have hlength := congrArg List.length hlist
    simp only [Array.length_toList, List.length_append, List.length_drop, ByteArray.size_data] at hlength
    omega
  · rw [hlist, ← ByteArray.size_data, ← Array.length_toList, List.drop_left]

end AltersOnly

/-- To write a range back and drop it alters nothing outside of it. -/
def Disturbance.SparesRest (d : Disturbance) : Prop :=
  ∀ n op m, op.kind = .cleanInvalidate → op.object = .destination →
    AltersOnly op.length m.destination (d n op m).destination

lemma Disturbance.Confined.sparesRest {d : Disturbance} (h : d.Confined) : d.SparesRest := by
  intro n op m hkind _
  have hop := h n op m
  rwa [if_pos hkind] at hop

/-- No more is written back and dropped than what the image takes. -/
lemma length_writeBack_le (addr : UInt64) (image : ByteArray) :
    (writeBack addr image).length ≤ image.size := by
  have hlength : (writeBack addr image).length = image.size % UInt64.size := by
    rw [Maintenance.length, writeBack, Cache.byteRange, UInt64.add_comm, UInt64.add_sub_cancel,
      UInt64.toNat_ofNat']
  rw [hlength]
  exact Nat.mod_le _ _

namespace Machine

/-- The machine once an image was copied. -/
def copied (m : Machine) (image : ByteArray) : Machine := { m with memory := m.memory.copy image }

/-- The machine once the cache was maintained for an image that was copied. -/
def settled (m : Machine) (d : Disturbance) (image : ByteArray) : Machine :=
  (m.copied image).maintain d (writeBack m.memory.base image)

variable {d : Disturbance} {m : Machine} {image : ByteArray}

lemma altersOnly_settled (hd : d.SparesRest) (hroom : image.size ≤ m.memory.destination.size) :
    AltersOnly image.size m.memory.destination (m.settled d image).memory.destination :=
  (AltersOnly.copy hroom).trans ((hd _ _ _ rfl rfl).mono (length_writeBack_le _ image))

end Machine

/-!
### Reading back
-/

section Comparison

variable {image v : ByteArray} {m : Machine} {d : Disturbance}

lemma holds_of_not_differsAt (hroom : image.size ≤ v.size) (h : ∀ i, ¬ DiffersAt image v i) :
    Holds image v := by
  rw [holds_iff]
  intro i hi
  refine ⟨Nat.lt_of_lt_of_le hi hroom, ?_⟩
  by_contra hne
  exact h i ⟨hi, _, hne⟩

/-- The first offset at which the destination differs from an image, if there is one. -/
def IsFirst (image v : ByteArray) : Option Nat → Prop
  | some offset => IsLeast {i | DiffersAt image v i} offset
  | none => Holds image v

/-- The comparison goes on as long as it finds no difference, and leaves the machine as it is. -/
lemma run_mismatchFrom (hroom : image.size ≤ m.memory.destination.size) (addr : UInt64)
    {offset : Nat} (hbefore : ∀ i < offset, ¬ DiffersAt image m.memory.destination i)
    (past : List Machine) :
    ∃ r n, (mismatchFrom addr image offset).run (Machine.handler d).watching (m, past) =
        (.ok r, m, List.replicate n m ++ past) ∧ IsFirst image m.memory.destination r := by
  -- the recursion counts up to the size of the image
  induction hleft : image.size - offset generalizing offset past with
  | zero =>
    refine ⟨none, 0, ?_, holds_of_not_differsAt hroom ?_⟩
    · rw [mismatchFrom, dif_neg (by omega)]
      rfl
    · rintro i ⟨hi, hdiffers⟩
      exact hbefore i (by omega) ⟨hi, hdiffers⟩
  | succ left ih =>
    have hlt : offset < image.size := by omega
    have hin : offset < m.memory.destination.size := by omega
    have hload : (load addr offset).run (Machine.handler d).watching (m, past) =
        (.ok m.memory.destination[offset], m, m :: past) := by
      have hbyte : m.memory.load offset = m.memory.destination[offset] := dif_pos hin
      rw [← hbyte]
      rfl
    rw [mismatchFrom, dif_pos hlt, Program.bind_eq, Program.run_bind, hload]
    by_cases heq : m.memory.destination[offset] = image[offset]
    · have hnext : ∀ i < offset + 1, ¬ DiffersAt image m.memory.destination i := by
        rintro i hi hdiffers
        obtain hlt | rfl := Nat.lt_succ_iff_lt_or_eq.mp hi
        · exact hbefore i hlt hdiffers
        · obtain ⟨_, _, hne⟩ := hdiffers
          exact hne heq
      obtain ⟨r, n, hrun, hfirst⟩ := ih hnext (m :: past) (by omega)
      refine ⟨r, n + 1, ?_, hfirst⟩
      simp only [if_pos heq, hrun, List.replicate_succ', List.append_assoc, List.singleton_append]
    · refine ⟨some offset, 1, ?_, ⟨hlt, hin, heq⟩, ?_⟩
      · simp only [if_neg heq]
        rfl
      · intro i hi
        by_contra hlt
        exact hbefore i (Nat.lt_of_not_le hlt) hi

end Comparison

/-!
### The load
-/

/-- What becomes of a load that is carried out, by the destination once the cache was maintained. -/
structure Judged (c : SecondaryCore) (image v : ByteArray) (outcome : Except BootError Unit)
    (c' : SecondaryCore) : Prop where
  /-- With read-back the load succeeds if and only if the destination starts with the image. -/
  ok_iff : c.verify = true → (outcome = .ok () ↔ Holds image v)
  /-- If it does not, the outcome is the first offset at which they differ. -/
  failed : c.verify = true → ¬ Holds image v →
    ∃ offset, outcome = .error (.verifyFailed offset) ∧ IsLeast {i | DiffersAt image v i} offset
  /-- Without read-back the load succeeds. -/
  unverified : c.verify = false → outcome = .ok ()
  /-- The core only changes if the load succeeds. -/
  core : c' = if outcome = .ok () then { c with state := .imageLoaded } else c

namespace SecondaryCore

variable {d : Disturbance} {c : SecondaryCore} {image : ByteArray} {m : Machine}

/-- The load once the image is in place and the cache maintained. -/
def finishLoad (c : SecondaryCore) (addr : UInt64) (image : ByteArray) : Step := do
  if c.verify then
    if let some offset := ← mismatchFrom addr image 0 then
      return (.error (.verifyFailed offset), c)
  return (.ok (), { c with state := .imageLoaded })

lemma run_finishLoad (hroom : image.size ≤ m.memory.destination.size) (addr : UInt64)
    (past : List Machine) :
    ∃ outcome c' n, (c.finishLoad addr image).run (Machine.handler d).watching (m, past) =
        (.ok (outcome, c'), m, List.replicate n m ++ past) ∧
      Judged c image m.memory.destination outcome c' := by
  rw [finishLoad]
  by_cases hverify : c.verify = true
  · have hbefore : ∀ i < 0, ¬ DiffersAt image m.memory.destination i :=
      fun i hi => absurd hi i.not_lt_zero
    obtain ⟨r, n, hrun, hfirst⟩ := run_mismatchFrom (d := d) hroom addr hbefore past
    rw [if_pos hverify, Program.bind_eq, Program.run_bind, hrun]
    cases r with
    | none =>
      refine ⟨.ok (), { c with state := .imageLoaded }, n, rfl, ?_⟩
      constructor
      · exact fun _ => ⟨fun _ => hfirst, fun _ => rfl⟩
      · exact fun _ hnot => absurd hfirst hnot
      · exact fun _ => rfl
      · rw [if_pos rfl]
    | some offset =>
      have hnot : ¬ Holds image m.memory.destination := DiffersAt.not_holds hfirst.1
      refine ⟨.error (.verifyFailed offset), c, n, rfl, ?_⟩
      constructor
      · exact fun _ => ⟨nofun, fun h => absurd h hnot⟩
      · exact fun _ _ => ⟨offset, rfl, hfirst⟩
      · exact fun h => absurd hverify (by simp [h])
      · rw [if_neg nofun]
  · rw [if_neg hverify]
    refine ⟨.ok (), { c with state := .imageLoaded }, 0, rfl, ?_⟩
    constructor
    · exact fun h => absurd h hverify
    · exact fun h => absurd h hverify
    · exact fun _ => rfl
    · rw [if_pos rfl]

/-- A load that is refused makes no request. Any other leaves what is behind the image as it is the
whole time, and its outcome says how the destination differs from the image once the cache was
maintained. -/
theorem loadImage_exact (hd : d.SparesRest) (c : SecondaryCore) (image : ByteArray) (m : Machine) :
    ∃ outcome c' m' visited,
      (c.loadImage image m.memory.buffer).run (Machine.handler d).watching (m, []) =
          (.ok (outcome, c'), m', visited) ∧
        if c.state ≠ .heldInReset ∧ c.state ≠ .imageLoaded then
          outcome = .error (.wrongState c.state) ∧ c' = c ∧ m' = m ∧ visited = []
        else if m.memory.destination.size < image.size then
          outcome = .error .imageTooLarge ∧ c' = c ∧ m' = m ∧ visited = []
        else
          m' = m.settled d image ∧
            (∀ w ∈ m' :: visited, AltersOnly image.size m.memory.destination w.memory.destination) ∧
            Judged c image m'.memory.destination outcome c' := by
  by_cases hstate : c.state ≠ .heldInReset ∧ c.state ≠ .imageLoaded
  · rw [loadImage, if_pos hstate]
    exact ⟨_, _, _, _, rfl, by simp [hstate]⟩
  by_cases hlarge : m.memory.destination.size < image.size
  · rw [loadImage, if_neg hstate, Memory.room_buffer, if_pos hlarge]
    exact ⟨_, _, _, _, rfl, by simp [hstate, hlarge]⟩
  have hroom : image.size ≤ m.memory.destination.size := Nat.le_of_not_lt hlarge
  have hsettled : AltersOnly image.size m.memory.destination
      (m.settled d image).memory.destination := Machine.altersOnly_settled hd hroom
  obtain ⟨outcome, c', n, hrun, hjudged⟩ := run_finishLoad (d := d) (c := c)
    (m := m.settled d image) (hsettled.1.symm ▸ hroom) m.memory.base
    [m.settled d image, m.copied image]
  have hload : (c.loadImage image m.memory.buffer).run (Machine.handler d).watching (m, []) =
      (c.finishLoad m.memory.base image).run (Machine.handler d).watching
        (m.settled d image, [m.settled d image, m.copied image]) := by
    rw [loadImage, if_neg hstate, Memory.room_buffer, if_neg hlarge]
    rfl
  refine ⟨outcome, c', _, _, hload.trans hrun, ?_⟩
  rw [if_neg hstate, if_neg hlarge]
  refine ⟨rfl, ?_, hjudged⟩
  -- the machine was in two states: with the image just copied, and with the cache maintained
  intro w hw
  simp only [List.mem_cons, List.mem_append, List.mem_replicate, List.not_mem_nil, or_false] at hw
  obtain rfl | ⟨-, rfl⟩ | rfl | rfl := hw
  · exact hsettled
  · exact hsettled
  · exact hsettled
  · exact AltersOnly.copy hroom

/-- A cache that loses a byte. -/
def losesByte : Disturbance := .scripted [(1, 1, 0xee)] []

/-- A machine whose destination has a byte to spare. -/
def spacious : Machine := .fresh ⟨0x80000000, ⟨#[0, 0, 7]⟩, 0⟩ .fresh

lemma destination_spacious_settled :
    (spacious.settled losesByte ⟨#[0x11, 0x22]⟩).memory.destination = ⟨#[0x11, 0xee, 7]⟩ := by
  decide

/-- The byte that was lost is the one that the load reports. -/
theorem loadImage_exact_lossy : losesByte.SparesRest ∧
    ∃ m' visited, (SecondaryCore.fresh.loadImage ⟨#[0x11, 0x22]⟩ spacious.memory.buffer).run
        (Machine.handler losesByte).watching (spacious, []) =
      (.ok (.error (.verifyFailed 1), .fresh), m', visited) := by
  have hspares : losesByte.SparesRest := (Disturbance.scripted_confined _ _).sparesRest
  refine ⟨hspares, ?_⟩
  obtain ⟨outcome, c', m', visited, hrun, hexact⟩ :=
    loadImage_exact hspares .fresh ⟨#[0x11, 0x22]⟩ spacious
  rw [if_neg (by decide), if_neg (by decide)] at hexact
  obtain ⟨rfl, -, hjudged⟩ := hexact
  rw [destination_spacious_settled] at hjudged
  have hkept : ¬ DiffersAt ⟨#[0x11, 0x22]⟩ ⟨#[0x11, 0xee, 7]⟩ 0 := fun ⟨_, _, hne⟩ => hne rfl
  have hlost : DiffersAt ⟨#[0x11, 0x22]⟩ ⟨#[0x11, 0xee, 7]⟩ 1 :=
    ⟨by decide, by decide, by decide⟩
  obtain ⟨offset, rfl, hoffset, hleast⟩ := hjudged.failed rfl hlost.not_holds
  have hone : offset = 1 := by
    obtain rfl | rfl := Nat.le_one_iff_eq_zero_or_eq_one.mp (hleast hlost)
    · exact absurd hoffset hkept
    · rfl
  subst hone
  obtain rfl : c' = .fresh := hjudged.core
  exact ⟨_, visited, hrun⟩

end SecondaryCore

end Boot

end Intercore
