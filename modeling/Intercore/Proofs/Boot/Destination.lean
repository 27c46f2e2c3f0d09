import Intercore.Boot.Machine
import Intercore.Proofs.Contract

/-!
# The destination

What the steps of the bring-up do to the memory that images are copied to. Nothing but the bring-up
and the maintenance of the cache changes it, and maintenance does so only in the range it is for.
-/

namespace Intercore.Boot

/-- Nothing was altered but the first `length` bytes. -/
def AltersOnly (length : Nat) (v v' : ByteArray) : Prop :=
  v'.size = v.size ∧ v'.data.toList.drop length = v.data.toList.drop length

/-- The surroundings leave the destination alone, except for what they are asked. To write back and
drop a range may change every byte of it, and the flag is never treated in this way. -/
def destination : Contract Request ByteArray where
  allows
    | v, .copy _ image => image.size ≤ v.size
    | _, .maintain op => op.kind = .cleanInvalidate → op.object = .destination
    | _, _ => True
  answers
    | v, .copy _ image, _, v' => v'.data.toList = image.data.toList ++ v.data.toList.drop image.size
    | v, .maintain op, _, v' =>
      if op.kind = .cleanInvalidate then AltersOnly op.length v v' else v' = v
    | v, .load _ offset, (r : UInt8), v' => v' = v ∧ ∀ h : offset < v.size, r = v[offset]
    | v, _, _, v' => v' = v

/-- The destination starts with an image. -/
def Holds (image v : ByteArray) : Prop := image.data.toList <+: v.data.toList

/-- The destination differs from an image at an offset. -/
def DiffersAt (image v : ByteArray) (offset : Nat) : Prop :=
  ∃ (_ : offset < image.size) (_ : offset < v.size), v[offset] ≠ image[offset]

variable {image v : ByteArray}

lemma holds_iff : Holds image v ↔
    ∀ i, ∀ _ : i < image.size, ∃ _ : i < v.size, v[i] = image[i] := by
  rw [Holds, List.prefix_iff_getElem?]
  refine forall_congr' fun i => ⟨fun h hi => ?_, fun h hi => ?_⟩
  · obtain ⟨hv, heq⟩ := List.getElem?_eq_some_iff.mp (h (by simpa using hi))
    exact ⟨by simpa using hv, by simpa [ByteArray.getElem_eq_getElem_data] using heq⟩
  · obtain ⟨hv, heq⟩ := h (by simpa using hi)
    refine List.getElem?_eq_some_iff.mpr ⟨by simpa using hv, ?_⟩
    simpa [ByteArray.getElem_eq_getElem_data] using heq

lemma DiffersAt.not_holds {offset : Nat} (h : DiffersAt image v offset) : ¬ Holds image v := by
  obtain ⟨himage, hv, hne⟩ := h
  intro hholds
  obtain ⟨_, heq⟩ := holds_iff.mp hholds offset himage
  exact hne heq

/-!
### Reading back
-/

/-- What a comparison from an offset on finds. -/
def Found (image v : ByteArray) (offset : Nat) : Option Nat → Prop
  | some o => DiffersAt image v o
  | none => ∀ i, offset ≤ i → ∀ _ : i < image.size, ∃ _ : i < v.size, v[i] = image[i]

lemma keeps_load {addr : UInt64} {offset : Nat} {post : UInt8 → ByteArray → Prop}
    (h : offset < v.size) (hpost : post v[offset] v) :
    (load addr offset).Keeps destination post v := by
  refine ⟨trivial, ?_⟩
  rintro r _ ⟨rfl, hr⟩
  rwa [hr h]

/-- The comparison stops at the first byte that differs, and there is none if it does not stop. -/
lemma keeps_mismatchFrom (hroom : image.size ≤ v.size) (addr : UInt64) (offset : Nat) :
    (mismatchFrom addr image offset).Keeps destination
      (fun r v' => v' = v ∧ Found image v offset r) v := by
  -- the recursion counts up to the size of the image
  induction hleft : image.size - offset generalizing offset with
  | zero =>
    rw [mismatchFrom, dif_neg (by omega)]
    refine ⟨rfl, ?_⟩
    intro i hi hlt
    omega
  | succ left ih =>
    have hlt : offset < image.size := by omega
    rw [mismatchFrom, dif_pos hlt, Program.bind_eq, Program.keeps_bind]
    apply keeps_load (by omega)
    by_cases heq : v[offset] = image[offset]
    · rw [if_pos heq]
      apply (ih (offset + 1) (by omega)).mono
      rintro r v' ⟨rfl, hr⟩
      refine ⟨rfl, ?_⟩
      cases r with
      | some o => exact hr
      | none =>
        intro i hi hsize
        by_cases hnext : i = offset
        · subst hnext
          exact ⟨_, heq⟩
        · exact hr i (by omega) hsize
    · rw [if_neg heq]
      exact ⟨rfl, hlt, by omega, heq⟩

lemma found_zero {r : Option Nat} (h : Found image v 0 r) :
    match r with
    | some o => DiffersAt image v o
    | none => Holds image v := by
  cases r with
  | some o => exact h
  | none =>
    rw [holds_iff]
    intro i hi
    exact h i (Nat.zero_le i) hi

/-!
### The parts of the steps

Which requests they make.
-/

section Parts

variable {α : Type} {P : Request → Prop}

lemma onReset_all {p : Reset.Prog α} (hp : p.All fun a => P (.reset a)) : (onReset p).All P := by
  induction p with
  | done a => trivial
  | ask a next ih => exact ⟨hp.1, fun r => ih r (hp.2 r)⟩

lemma mismatchFrom_all {addr : UInt64} (hload : ∀ offset, P (.load addr offset))
    (image : ByteArray) (offset : Nat) : (mismatchFrom addr image offset).All P := by
  -- the recursion counts up to the size of the image
  induction hleft : image.size - offset generalizing offset with
  | zero =>
    rw [mismatchFrom, dif_neg (by omega)]
    trivial
  | succ left ih =>
    rw [mismatchFrom, dif_pos (by omega)]
    refine ⟨hload offset, fun r => ?_⟩
    simp only [Program.done_bind]
    split
    · exact ih (offset + 1) (by omega)
    · trivial

variable {flag : BootFlag}

lemma setFlag_all {value : UInt32} (hstore : P (.storeFlag flag value))
    (hclean : P (.maintain flag.clean)) : (setFlag flag value).All P :=
  ⟨hstore, fun _ => ⟨hclean, fun _ => trivial⟩⟩

lemma isFlagSet_all (hload : P (.loadFlag flag)) (hinvalidate : P (.maintain flag.invalidate)) :
    (isFlagSet flag).All P :=
  ⟨hinvalidate, fun _ => ⟨hload, fun _ => trivial⟩⟩

lemma poll_all (hlook : (isFlagSet flag).All P) (hdelay : P (.delay 1)) (attempts : Nat) :
    (SecondaryCore.poll flag attempts).All P := by
  induction attempts with
  | zero => trivial
  | succ attempts ih =>
    apply Program.all_bind hlook
    intro isSet
    split
    · trivial
    · exact ⟨hdelay, fun _ => ih⟩

end Parts

/-!
### The steps

Only `loadImage` copies an image, and only if it does not refuse to. The others do not go near the
destination.
-/

/-- A request that the destination is no part of. -/
def Elsewhere : Request → Prop
  | .copy _ _ | .load _ _ => False
  | .maintain op => op.kind ≠ .cleanInvalidate
  | _ => True

lemma keeps_elsewhere {α : Type} {p : Prog α} (hp : p.All Elsewhere) :
    p.Keeps destination (fun _ v' => v' = v) v := by
  refine hp.keeps rfl ?_
  rintro q _ hq rfl
  match q, hq with
  | .maintain op, hq =>
    constructor
    · intro h
      exact absurd h hq
    · intro _ v' hv'
      simpa [destination, if_neg hq] using hv'
  | .reset _, _ | .storeFlag _ _, _ | .loadFlag _, _ | .delay _, _ | .wake, _ =>
    exact ⟨trivial, fun _ _ hv' => hv'⟩

lemma onReset_elsewhere {α : Type} (p : Reset.Prog α) : (onReset p).All Elsewhere := by
  rw [onReset]
  induction p with
  | done a => trivial
  | ask q next ih =>
    constructor
    · trivial
    · exact ih

lemma clearFlag_elsewhere (flag : BootFlag) : (clearFlag flag).All Elsewhere :=
  setFlag_all trivial nofun

lemma poll_elsewhere (flag : BootFlag) (attempts : Nat) :
    (SecondaryCore.poll flag attempts).All Elsewhere :=
  poll_all (isFlagSet_all trivial nofun) trivial attempts

namespace SecondaryCore

variable {c : SecondaryCore}

/-- What a step does that does not copy anything. -/
def Leaves (c : SecondaryCore) (v : ByteArray) (c' : SecondaryCore) (v' : ByteArray) : Prop :=
  v' = v ∧ c'.verify = c.verify ∧ (c'.state = .imageLoaded → c.state = .imageLoaded)

lemma keeps_release : c.release.Keeps destination
    (fun outcome v' =>
      c.Leaves v outcome.2 v' ∧ (outcome.1 = .ok () → c.state = .imageLoaded)) v := by
  rw [release]
  split
  next hstate => exact ⟨⟨rfl, rfl, id⟩, nofun⟩
  next hstate =>
    have hstate : c.state = .imageLoaded := Decidable.not_not.mp hstate
    simp only [Program.bind_eq, Program.pure_eq, Program.keeps_bind]
    apply (keeps_elsewhere (clearFlag_elsewhere c.flag)).mono
    rintro _ _ rfl
    apply (keeps_elsewhere (onReset_elsewhere _)).mono
    rintro left _ rfl
    cases left with
    | error e => exact ⟨⟨rfl, rfl, fun _ => hstate⟩, nofun⟩
    | ok u =>
      -- the delay, and then the event
      refine ⟨trivial, ?_⟩
      rintro _ _ rfl
      refine ⟨trivial, ?_⟩
      rintro _ _ rfl
      exact ⟨⟨rfl, rfl, nofun⟩, fun _ => hstate⟩

lemma keeps_waitRunning (attempts : Nat) :
    (c.waitRunning attempts).Keeps destination (fun outcome v' => c.Leaves v outcome.2 v') v := by
  rw [waitRunning]
  cases hstate : c.state with
  | running | heldInReset | imageLoaded => exact ⟨rfl, rfl, by simp [hstate]⟩
  | released =>
    simp only [Program.bind_eq, Program.pure_eq, Program.keeps_bind]
    apply (keeps_elsewhere (poll_elsewhere c.flag attempts)).mono
    rintro isSet _ rfl
    cases isSet with
    | true => exact ⟨rfl, rfl, nofun⟩
    | false => exact ⟨rfl, rfl, by simp [hstate]⟩

lemma keeps_hold : c.hold.Keeps destination
    (fun outcome v' => c.Leaves v outcome.2 v' ∧
      (outcome.1 = .ok () → outcome.2.state = .heldInReset)) v := by
  simp only [hold, Program.bind_eq, Program.pure_eq, Program.keeps_bind]
  apply (keeps_elsewhere (onReset_elsewhere _)).mono
  rintro entered _ rfl
  cases entered with
  | error e => exact ⟨⟨rfl, rfl, id⟩, nofun⟩
  | ok u => exact ⟨⟨rfl, rfl, nofun⟩, fun _ => rfl⟩

/-- Whether the image was copied, by the outcome of loading it. -/
def copied : Except BootError Unit → Bool
  | .ok () | .error (.verifyFailed _) => true
  | _ => false

/-- What the outcome of loading an image tells of the destination. -/
def Told (image v : ByteArray) : Except BootError Unit → Prop
  | .ok () => Holds image v
  | .error (.verifyFailed offset) => DiffersAt image v offset
  | _ => False

/-- With read-back, the outcome of loading an image tells whether the destination holds it. -/
lemma keeps_loadImage (hverify : c.verify = true) (addr : UInt64) :
    (c.loadImage image ⟨addr, v.size⟩).Keeps destination (fun outcome v' =>
      outcome.2.verify = true ∧ (outcome.1 ≠ .ok () → outcome.2 = c) ∧
      if copied outcome.1 then Told image v' outcome.1 else v' = v) v := by
  rw [loadImage]
  split
  · exact ⟨hverify, fun _ => rfl, rfl⟩
  split
  · exact ⟨hverify, fun _ => rfl, rfl⟩
  rename_i hstate hroom
  have hroom : image.size ≤ v.size := Nat.le_of_not_lt hroom
  -- copying makes the destination `v₁`, and the cache makes it `v₂`
  refine ⟨hroom, fun _ v₁ hcopy => ⟨fun _ => rfl, fun _ v₂ hmaintain => ?_⟩⟩
  have hsize : image.size ≤ v₂.size := by
    have hlength := congrArg List.length hcopy
    simp only [Array.length_toList, List.length_append, List.length_drop] at hlength
    have hsame : v₂.size = v₁.size := hmaintain.1
    rw [hsame]
    simp only [ByteArray.size] at hroom ⊢
    omega
  simp only [hverify, Program.bind_eq, Program.pure_eq, Program.done_bind, Program.keeps_bind]
  apply (keeps_mismatchFrom hsize addr 0).mono
  rintro r v' ⟨rfl, hr⟩
  have hfound := found_zero hr
  cases r with
  | some offset => exact ⟨hverify, fun _ => rfl, hfound⟩
  | none => exact ⟨rfl, fun h => absurd rfl h, hfound⟩

end SecondaryCore

/-!
### The machine

The model of the machine is such a surrounding, whatever its cache does to the ranges it is given.
-/

@[simp] lemma Memory.room_buffer (m : Memory) : m.buffer.room = m.destination.size := rfl

lemma Memory.toList_copy (m : Memory) (image : ByteArray) :
    (m.copy image).destination.data.toList =
      image.data.toList ++ m.destination.data.toList.drop image.size := by
  simp only [Memory.copy, ByteArray.data_append, ByteArray.data_extract, Array.toList_append,
    Array.toList_extract, List.extract_eq_take_drop, List.append_cancel_left_eq]
  exact List.take_of_length_le (by simp)

lemma Memory.altersOnly_store (m : Memory) {offset length : Nat} (value : UInt8)
    (h : offset < length) : AltersOnly length m.destination (m.store offset value).destination := by
  rw [Memory.store]
  split
  next hin =>
    constructor
    · rw [← ByteArray.size_data, ByteArray.data_set, Array.size_set, ByteArray.size_data]
    · rw [ByteArray.data_set, Array.toList_set, List.drop_set_of_lt h]
  next => exact ⟨rfl, rfl⟩

namespace Disturbance

/-- Memory changes only where ranges of it are written back and dropped. -/
def Confined (d : Disturbance) : Prop :=
  ∀ n op m, if op.kind = .cleanInvalidate then
    AltersOnly op.length m.destination (d n op m).destination
  else (d n op m).destination = m.destination

lemma scripted_confined (faults : List (Nat × Nat × UInt8)) (announced : List (Nat × UInt32)) :
    (scripted faults announced).Confined := by
  intro n op m
  simp only [scripted]
  cases hkind : op.kind with
  | clean => exact rfl
  | invalidate =>
    refine List.foldlRecOn (motive := fun m' : Memory => m'.destination = m.destination) announced _
      rfl fun m' hm' a _ => ?_
    split
    · exact hm'
    · exact hm'
  | cleanInvalidate =>
    refine List.foldlRecOn
      (motive := fun m' : Memory => AltersOnly op.length m.destination m'.destination) faults _
      ⟨rfl, rfl⟩ fun m' hm' a _ => ?_
    split
    next hfault =>
      have hstore := m'.altersOnly_store a.2.2 hfault.2
      exact ⟨hstore.1.trans hm'.1, hstore.2.trans hm'.2⟩
    next => exact hm'

end Disturbance

lemma Machine.honours {d : Disturbance} (hd : d.Confined) :
    destination.HonouredBy (Machine.handler d) (fun m => m.memory.destination) := by
  intro q m r m' hallow hr
  cases q with
  | copy _ image =>
    cases hr
    exact m.memory.toList_copy image
  | maintain op =>
    cases hr
    exact hd _ op m.memory
  | load _ offset =>
    cases hr
    exact ⟨rfl, fun h => dif_pos h⟩
  | reset a =>
    simp only [Machine.handler, Prod.mk.injEq] at hr
    obtain ⟨-, rfl⟩ := hr
    exact rfl
  | storeFlag | loadFlag | delay | wake =>
    cases hr
    exact rfl

end Intercore.Boot
