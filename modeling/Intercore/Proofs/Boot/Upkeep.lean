import Intercore.Proofs.Boot.Release
import Intercore.Proofs.Extent
import Intercore.Proofs.Reset.Window

/-!
# Upkeep of the cache

Neither core sees what the other one has in its cache. So what is written is written back at once, what
is read is dropped from the cache just before, and the core is let go only when both the image and the
cleared flag have been written back.

All of this is about the order of requests, and each call is verified by itself, whatever its requests
are answered with. What calls leave behind for later ones is a single fact: while an image counts as
loaded, the last one that was copied was written back.

Maintenance is for addresses. That they are those of the flag or of the image and no others is said in
numbers without bound, so nothing wraps.
-/

namespace Intercore.Boot

/-!
### Calls and their requests
-/

/-- A call into the bring-up, on either core. -/
inductive Call
  | operate (op : Operation)
  | announce (flag : BootFlag)

/-- What a call runs. It ends with what is then known of the core. -/
def Call.program (destination : Buffer) (c : SecondaryCore) : Call → Prog SecondaryCore
  | operate op => return (← op.step destination c).2
  | announce flag => do
    Boot.announce flag
    return c

/-- The buffer ends before addresses wrap, as all memory does that is allocated. -/
def Buffer.Fits (b : Buffer) : Prop := b.addr.toNat + b.room < UInt64.size

instance (b : Buffer) : Decidable b.Fits := Nat.decLt _ _

/-- A call that returned, with its requests, oldest first. -/
structure Episode where
  call : Call
  requests : List Request

/-- All requests of some calls, oldest first. -/
def trace (log : List Episode) : List Request := log.flatMap Episode.requests

/-- The requests that were answered, oldest first. -/
def requests {σ : Type} (s : σ × List (Event Request)) : List Request :=
  (s.2.map Event.request).reverse

/-- The core is held in reset at first. Then calls are made one after the other, with images and
destinations of any size. Between them anything may happen to the surroundings. -/
inductive Course {σ ε : Type} (H : Handler Request σ ε) :
    SecondaryCore → σ → List Episode → Prop
  | start (flag : BootFlag) (verify : Bool) (releaseSpin : Nat) (s : σ) :
    Course H ⟨.heldInReset, flag, verify, releaseSpin⟩ s []
  | call {c c' : SecondaryCore} {s : σ} {s' : σ × List (Event Request)} {log : List Episode}
      (k : Call) (destination : Buffer) (fits : destination.Fits) (before : Course H c s log)
      (run : (k.program destination c).run H.recording (s, []) = (.ok c', s')) :
      Course H c' s'.1 (log ++ [⟨k, requests s'⟩])
  | elsewhere {c : SecondaryCore} {s : σ} {log : List Episode} (s' : σ)
      (before : Course H c s log) : Course H c s' log

/-!
### What goes with an access
-/

/-- The bytes of the flag. -/
def BootFlag.extent (flag : BootFlag) : Extent := ⟨flag.addr.toNat, 4⟩

/-- The cache is maintained in one way, for the bytes of an extent and for no others. -/
structure Maintenance.Exactly (op : Maintenance) (kind : Cache.Kind) (e : Extent) : Prop where
  kind : op.kind = kind
  range : op.range.Measures e

/-- An image, and where it is copied to. -/
structure Copy where
  addr : UInt64
  image : ByteArray
  fits : addr.toNat + image.size < UInt64.size

namespace Copy

def request (k : Copy) : Request := .copy k.addr k.image

def upkeep (k : Copy) : Maintenance := writeBack k.addr k.image

/-- The bytes that the image is copied to. -/
def extent (k : Copy) : Extent := ⟨k.addr.toNat, k.image.size⟩

end Copy

lemma measures_byteRange {addr : UInt64} {size : Nat} (h : addr.toNat + size < UInt64.size) :
    (Cache.byteRange addr size).Measures ⟨addr.toNat, size⟩ := by
  have hsize : size < UInt64.size := Nat.lt_of_le_of_lt (Nat.le_add_left _ _) h
  refine ⟨rfl, ?_⟩
  rw [Cache.byteRange, UInt64.toNat_add, UInt64.toNat_ofNat_of_lt' hsize, Nat.mod_eq_of_lt h]
  rfl

lemma BootFlag.exactly_clean (flag : BootFlag) : flag.clean.Exactly .clean flag.extent :=
  ⟨rfl, measures_byteRange flag.fits⟩

lemma BootFlag.exactly_invalidate (flag : BootFlag) :
    flag.invalidate.Exactly .invalidate flag.extent :=
  ⟨rfl, measures_byteRange flag.fits⟩

lemma Copy.exactly_upkeep (k : Copy) : k.upkeep.Exactly .cleanInvalidate k.extent :=
  ⟨rfl, measures_byteRange k.fits⟩

/-- The maintenance that has to follow a request at once. -/
def Request.upkeep : Request → Option Maintenance
  | .storeFlag flag _ => some flag.clean
  | .copy addr image => some (writeBack addr image)
  | _ => none

/-- A write that lets go of the secondary core, if it is held. -/
def Request.LetsGo : Request → Prop
  | .reset (.write r value) =>
    r = Reset.Line.rtCore.register ∧ value &&& Reset.Line.rtCore.mask = 0
  | _ => False

/-- An image is copied and written back, and read back up to an offset. -/
def readUpTo (k : Copy) (offset : Nat) : List Request :=
  [k.request, .maintain k.upkeep] ++ (List.range offset).map (Request.load k.addr)

/-- What has to come right before a request. -/
def Prepared (before : List Request) : Request → Prop
  | .loadFlag flag => [.maintain flag.invalidate] <:+ before
  | .copy addr image => addr.toNat + image.size < UInt64.size
  | .load addr offset =>
    ∃ k : Copy, k.addr = addr ∧ offset < k.image.size ∧ readUpTo k offset <:+ before
  | .maintain op =>
    op.kind = .cleanInvalidate → ∃ k : Copy, op = k.upkeep ∧ [k.request] <:+ before
  | _ => True

/-- The flag was set to zero and written back, and nothing but accesses to the system controller was
made since. -/
def FlagCleared (flag : BootFlag) (own : List Request) : Prop :=
  ∃ accesses : List (Access Reset.Register),
    own = [.storeFlag flag 0, .maintain flag.clean] ++ accesses.map Request.reset

/-- No image is copied. -/
def NoCopy (l : List Request) : Prop := ∀ addr image, Request.copy addr image ∉ l

/-- The last image that was copied was written back. -/
def WrittenBack (t : List Request) : Prop :=
  ∃ l k r, t = l ++ [Copy.request k, .maintain k.upkeep] ++ r ∧ NoCopy r

/-- The maintenance that is due next. -/
def due (own : List Request) : Option Maintenance := own.getLast?.bind Request.upkeep

/-- A request may be made where `own` are the requests of the call so far. Only with a licence for a flag
may the call let go of the core, once this flag was cleared. -/
structure Fits (licence : BootFlag → Prop) (own : List Request) (q : Request) : Prop where
  due : ∀ op, due own = some op → q = .maintain op
  prepared : Prepared own q
  cleared : q.LetsGo → ∃ flag, licence flag ∧ FlagCleared flag own

/-- The requests of one call, whatever they are answered with. -/
def upkeep (licence : BootFlag → Prop) : Contract Request (List Request) where
  allows own q := Fits licence own q
  answers own q _ own' := own' = own ++ [q]

variable {licence : BootFlag → Prop} {flag : BootFlag} {own : List Request}

@[simp] lemma due_append (l : List Request) (q : Request) : due (l ++ [q]) = q.upkeep := by
  simp [due]

/-- Nothing is due, and nothing was copied. -/
structure Quiet (own : List Request) : Prop where
  due : due own = none
  copies : NoCopy own

lemma noCopy_nil : NoCopy [] := fun _ _ => List.not_mem_nil

lemma NoCopy.append {l r : List Request} (hl : NoCopy l) (hr : NoCopy r) : NoCopy (l ++ r) := by
  intro addr image hmem
  rcases List.mem_append.mp hmem with hmem | hmem
  · exact hl addr image hmem
  · exact hr addr image hmem

lemma quiet_nil : Quiet [] := ⟨rfl, noCopy_nil⟩

lemma Quiet.append (h : Quiet own) {q : Request} (hdue : q.upkeep = none) : Quiet (own ++ [q]) := by
  refine ⟨by rw [due_append, hdue], h.copies.append ?_⟩
  intro addr image hmem
  obtain rfl := List.mem_singleton.mp hmem
  cases hdue

lemma Fits.of_due (hdue : Boot.due own = none) {q : Request} (hprepared : Prepared own q)
    (hq : ¬ q.LetsGo) : Fits licence own q :=
  ⟨fun _ h => by simp [hdue] at h, hprepared, fun h => absurd h hq⟩

lemma fits_maintain {op : Maintenance} (hdue : Boot.due own = some op)
    (hprepared : Prepared own (.maintain op)) : Fits licence own (.maintain op) :=
  ⟨fun _ h => by simpa [hdue] using h, hprepared, nofun⟩

/-!
### The parts of the steps
-/

lemma setFlag_upkeep (hdue : due own = none) (value : UInt32) :
    (setFlag flag value).Keeps (upkeep licence)
      (fun _ own' => own' = own ++ [.storeFlag flag value, .maintain flag.clean]) own := by
  refine ⟨.of_due hdue trivial id, ?_⟩
  rintro _ _ rfl
  refine ⟨fits_maintain (due_append own _) nofun, ?_⟩
  rintro _ _ rfl
  exact List.append_assoc own _ _

lemma isFlagSet_upkeep (h : Quiet own) :
    (isFlagSet flag).Keeps (upkeep licence) (fun _ => Quiet) own := by
  refine ⟨.of_due h.due nofun id, ?_⟩
  rintro _ _ rfl
  refine ⟨.of_due (due_append own _) (List.suffix_append own _) id, ?_⟩
  rintro _ _ rfl
  exact (h.append rfl).append rfl

lemma poll_upkeep (attempts : Nat) (h : Quiet own) :
    (SecondaryCore.poll flag attempts).Keeps (upkeep licence) (fun _ => Quiet) own := by
  induction attempts generalizing own with
  | zero => exact h
  | succ attempts ih =>
    rw [SecondaryCore.poll, Program.bind_eq, Program.keeps_bind]
    apply (isFlagSet_upkeep h).mono
    intro isSet own' h'
    cases isSet with
    | true => exact h'
    | false =>
      refine ⟨.of_due h'.due trivial id, ?_⟩
      rintro _ _ rfl
      exact ih (h'.append rfl)

/-- Whoever pulls the line of the core does not let it go. -/
lemma enterReset_holds : (Reset.enterReset .rtCore).All fun a => ¬ (Request.reset a).LetsGo := by
  apply Reset.withOpen_all
  · exact id
  · intro _
    exact nofun
  refine ⟨id, fun value => ⟨?_, fun _ => trivial⟩⟩
  rintro ⟨-, hmask⟩
  rw [Reset.Line.or_mask_and_mask] at hmask
  exact Reset.Line.mask_ne_zero .rtCore hmask

lemma enterReset_upkeep (h : Quiet own) :
    (onReset (Reset.enterReset .rtCore)).Keeps (upkeep licence) (fun _ => Quiet) own := by
  have hall : (onReset (Reset.enterReset .rtCore)).All fun q =>
      ∃ a, q = .reset a ∧ ¬ (Request.reset a).LetsGo :=
    onReset_all (enterReset_holds.mono fun a ha => ⟨a, rfl, ha⟩)
  apply hall.keeps h
  rintro _ own' ⟨a, rfl, ha⟩ h'
  refine ⟨.of_due h'.due trivial ha, ?_⟩
  rintro _ _ rfl
  exact h'.append rfl

lemma Quiet.append_accesses (h : Quiet own) (accesses : List (Access Reset.Register)) :
    Quiet (own ++ accesses.map Request.reset) := by
  induction accesses generalizing own with
  | nil => rwa [List.map_nil, List.append_nil]
  | cons a accesses ih =>
    rw [List.map_cons, List.append_cons]
    exact ih (h.append rfl)

lemma quiet_stored (flag : BootFlag) (value : UInt32) :
    Quiet [.storeFlag flag value, .maintain flag.clean] :=
  ⟨rfl, by simp [NoCopy]⟩

lemma FlagCleared.quiet (h : FlagCleared flag own) : Quiet own := by
  obtain ⟨accesses, rfl⟩ := h
  exact (quiet_stored flag 0).append_accesses accesses

lemma FlagCleared.append (h : FlagCleared flag own) (a : Access Reset.Register) :
    FlagCleared flag (own ++ [.reset a]) := by
  obtain ⟨accesses, rfl⟩ := h
  exact ⟨accesses ++ [a], by simp⟩

/-- All that is done to let the core go is done after the flag was cleared. -/
lemma leaveReset_upkeep (hlicence : licence flag) (h : FlagCleared flag own) :
    (onReset (Reset.leaveReset .rtCore)).Keeps (upkeep licence) (fun _ => FlagCleared flag) own := by
  have hall : (onReset (Reset.leaveReset .rtCore)).All fun q => ∃ a, q = .reset a :=
    onReset_all ((Reset.leaveReset_served .rtCore).mono fun a _ => ⟨a, rfl⟩)
  apply hall.keeps h
  rintro _ own' ⟨a, rfl⟩ h'
  constructor
  · exact ⟨fun _ hdue => by simp [h'.quiet.due] at hdue, trivial, fun _ => ⟨flag, hlicence, h'⟩⟩
  · rintro _ _ rfl
    exact h'.append a

lemma readUpTo_succ (k : Copy) (offset : Nat) :
    readUpTo k (offset + 1) = readUpTo k offset ++ [.load k.addr offset] := by
  simp [readUpTo, List.range_succ]

lemma due_readUpTo (k : Copy) (offset : Nat) : due (readUpTo k offset) = none := by
  cases offset with
  | zero => rfl
  | succ offset =>
    rw [readUpTo_succ]
    exact due_append _ _

lemma mismatchFrom_upkeep (k : Copy) (offset : Nat) :
    (mismatchFrom k.addr k.image offset).Keeps (upkeep licence)
      (fun _ own' => ∃ offset', own' = readUpTo k offset') (readUpTo k offset) := by
  -- the recursion counts up to the size of the image
  induction hleft : k.image.size - offset generalizing offset with
  | zero =>
    rw [mismatchFrom, dif_neg (by omega)]
    exact ⟨offset, rfl⟩
  | succ left ih =>
    have hlt : offset < k.image.size := by omega
    rw [mismatchFrom, dif_pos hlt]
    refine ⟨.of_due (due_readUpTo k offset) ⟨k, rfl, hlt, List.suffix_refl _⟩ id, ?_⟩
    rintro r _ rfl
    rw [← readUpTo_succ]
    simp only [Program.done_bind]
    split
    · exact ih (offset + 1) (by omega)
    · exact ⟨offset + 1, rfl⟩

/-!
### The steps
-/

/-- What a call leaves behind: nothing is due, and if an image is loaded then this call has written
it back, or it was loaded before and is still the last one that was copied. -/
structure Settled (c c' : SecondaryCore) (own : List Request) : Prop where
  flag : c'.flag = c.flag
  due : due own = none
  loaded : c'.state = .imageLoaded → WrittenBack own ∨ c.state = .imageLoaded ∧ NoCopy own

lemma Quiet.settled (h : Quiet own) {c c' : SecondaryCore} (hflag : c'.flag = c.flag)
    (hstate : c'.state = .imageLoaded → c.state = .imageLoaded) : Settled c c' own :=
  ⟨hflag, h.due, fun hc' => .inr ⟨hstate hc', h.copies⟩⟩

lemma writtenBack_readUpTo (k : Copy) (offset : Nat) : WrittenBack (readUpTo k offset) :=
  ⟨[], k, _, rfl, by simp [NoCopy]⟩

namespace SecondaryCore

variable {c : SecondaryCore}

lemma loadImage_settled {destination : Buffer} (hfits : destination.Fits) (image : ByteArray) :
    (c.loadImage image destination).Keeps (upkeep licence) (fun r => Settled c r.2) [] := by
  rw [loadImage]
  split
  · exact quiet_nil.settled rfl id
  split
  · exact quiet_nil.settled rfl id
  rename_i hroom
  have hin : destination.addr.toNat + image.size < UInt64.size :=
    Nat.lt_of_le_of_lt (Nat.add_le_add_left (Nat.le_of_not_lt hroom) _) hfits
  let k : Copy := ⟨destination.addr, image, hin⟩
  -- the copy, and its maintenance
  refine ⟨.of_due rfl hin id, ?_⟩
  rintro _ _ rfl
  refine ⟨fits_maintain rfl fun _ => ⟨k, rfl, List.suffix_refl _⟩, ?_⟩
  rintro _ _ rfl
  have hsettled : ∀ c' offset, c'.flag = c.flag → Settled c c' (readUpTo k offset) :=
    fun c' offset hflag =>
      ⟨hflag, due_readUpTo k offset, fun _ => .inl (writtenBack_readUpTo k offset)⟩
  split
  · simp only [Program.bind_eq, Program.pure_eq, Program.done_bind, Program.keeps_bind]
    apply (mismatchFrom_upkeep k 0).mono
    rintro mismatch _ ⟨offset, rfl⟩
    cases mismatch with
    | some _ => exact hsettled _ offset rfl
    | none => exact hsettled _ offset rfl
  · exact hsettled _ 0 rfl

lemma release_settled (hlicence : c.state = .imageLoaded → licence c.flag) :
    c.release.Keeps (upkeep licence) (fun r => Settled c r.2) [] := by
  rw [release]
  split
  · exact quiet_nil.settled rfl id
  rename_i hstate
  have hstate : c.state = .imageLoaded := Decidable.not_not.mp hstate
  simp only [Program.bind_eq, Program.pure_eq, Program.keeps_bind]
  apply (setFlag_upkeep rfl 0).mono
  rintro _ _ rfl
  apply (leaveReset_upkeep (hlicence hstate) ⟨[], rfl⟩).mono
  intro left own' hcleared
  cases left with
  | error e => exact hcleared.quiet.settled rfl id
  | ok u =>
    -- the delay, and then the event
    refine ⟨.of_due hcleared.quiet.due trivial id, ?_⟩
    rintro _ _ rfl
    refine ⟨.of_due (due_append own' _) trivial id, ?_⟩
    rintro _ _ rfl
    exact ((hcleared.quiet.append rfl).append rfl).settled rfl (by simp)

lemma waitRunning_settled (attempts : Nat) :
    (c.waitRunning attempts).Keeps (upkeep licence) (fun r => Settled c r.2) [] := by
  rw [waitRunning]
  cases hstate : c.state with
  | running | heldInReset | imageLoaded => exact quiet_nil.settled rfl id
  | released =>
    simp only [Program.bind_eq, Program.pure_eq, Program.keeps_bind]
    apply (poll_upkeep attempts quiet_nil).mono
    intro isSet own' h'
    cases isSet with
    | true => exact h'.settled rfl (by simp)
    | false => exact h'.settled rfl id

lemma hold_settled : c.hold.Keeps (upkeep licence) (fun r => Settled c r.2) [] := by
  simp only [hold, Program.bind_eq, Program.pure_eq, Program.keeps_bind]
  apply (enterReset_upkeep quiet_nil).mono
  intro entered own' h'
  cases entered with
  | error e => exact h'.settled rfl id
  | ok u => exact h'.settled rfl (by simp)

end SecondaryCore

lemma announce_settled (c : SecondaryCore) (flag : BootFlag) :
    (announce flag).Keeps (upkeep licence) (fun _ => Settled c c) [] := by
  rw [announce, Program.bind_eq, Program.keeps_bind]
  apply (setFlag_upkeep rfl magic).mono
  rintro _ _ rfl
  refine ⟨.of_due rfl trivial id, ?_⟩
  rintro _ _ rfl
  exact ((quiet_stored flag magic).append rfl).settled rfl id

/-- Only a release lets go of the core, only if an image is loaded, and only with its own flag. -/
def Call.Licensed (c : SecondaryCore) (k : Call) (flag : BootFlag) : Prop :=
  k = .operate .release ∧ c.state = .imageLoaded ∧ flag = c.flag

lemma Call.program_settled {destination : Buffer} (hfits : destination.Fits) (c : SecondaryCore)
    (k : Call) : (k.program destination c).Keeps (upkeep (k.Licensed c)) (Settled c) [] := by
  cases k with
  | operate op =>
    simp only [Call.program, Program.bind_eq, Program.pure_eq, Program.keeps_bind]
    cases op with
    | load image => exact SecondaryCore.loadImage_settled hfits image
    | release => exact SecondaryCore.release_settled fun hstate => ⟨rfl, hstate, rfl⟩
    | waitRunning attempts => exact SecondaryCore.waitRunning_settled attempts
    | hold => exact SecondaryCore.hold_settled
  | announce flag =>
    simp only [Call.program, Program.bind_eq, Program.pure_eq, Program.keeps_bind]
    exact announce_settled c flag

/-!
### Whole courses
-/

/-- What ends a beginning of a longer list was added last, or it was there before. -/
lemma concat_prefix_concat {α : Type} {l xs : List α} {a x : α} (h : l ++ [a] <+: xs ++ [x]) :
    l = xs ∧ a = x ∨ l ++ [a] <+: xs := by
  rcases List.prefix_concat_iff.mp h with heq | h
  · obtain ⟨rfl, ⟨⟩⟩ := List.append_inj' heq rfl
    exact .inl ⟨rfl, rfl⟩
  · exact .inr h

/-- What ends a beginning of two lists is in the one or in the other. -/
lemma concat_prefix_append {α : Type} {l xs ys : List α} {a : α} (h : l ++ [a] <+: xs ++ ys) :
    l ++ [a] <+: xs ∨ ∃ own, l = xs ++ own ∧ own ++ [a] <+: ys := by
  rcases List.prefix_or_prefix_of_prefix h (List.prefix_append xs ys) with hl | hxs
  · exact .inl hl
  rcases List.prefix_concat_iff.mp hxs with rfl | ⟨own, rfl⟩
  · exact .inl (List.prefix_refl _)
  · rw [List.append_assoc, List.prefix_append_right_inj] at h
    exact .inr ⟨own, rfl, h⟩

/-- Every request of a call was made where it may be. -/
def Kept (licence : BootFlag → Prop) (own : List Request) : Prop :=
  ∀ l q, l ++ [q] <+: own → Fits licence l q

lemma Kept.append (h : Kept licence own) {q : Request} (hq : Fits licence own q) :
    Kept licence (own ++ [q]) := by
  intro l p hp
  rcases concat_prefix_concat hp with ⟨rfl, rfl⟩ | hp
  · exact hq
  · exact h l p hp

/-- Accesses come with their maintenance. -/
structure Orderly (t : List Request) : Prop where
  prepared : ∀ l q, l ++ [q] <+: t → Prepared l q
  followed : ∀ l q op, l ++ [q] <+: t → q.upkeep = some op → l ++ [q, .maintain op] <+: t

lemma Kept.orderly (h : Kept licence own) (hdue : due own = none) : Orderly own := by
  refine ⟨fun l q hq => (h l q hq).prepared, ?_⟩
  rintro l q op ⟨r, rfl⟩ hop
  cases r with
  | nil => simp [hop] at hdue
  | cons p r =>
    rw [← List.append_cons] at h
    have hp := (h (l ++ [q]) p ⟨r, by simp⟩).due op (by rw [due_append, hop])
    exact ⟨r, by simp [hp]⟩

variable {t : List Request}

lemma Prepared.prepend {q : Request} (h : Prepared own q) (t : List Request) :
    Prepared (t ++ own) q := by
  match q, h with
  | .loadFlag _, h => exact List.suffix_append_of_suffix h
  | .copy _ _, h => exact h
  | .load _ _, ⟨k, haddr, hlt, h⟩ => exact ⟨k, haddr, hlt, List.suffix_append_of_suffix h⟩
  | .maintain op, h =>
    intro hkind
    obtain ⟨k, hop, hcopy⟩ := h hkind
    exact ⟨k, hop, List.suffix_append_of_suffix hcopy⟩
  | .reset _, _ | .storeFlag _ _, _ | .delay _, _ | .wake, _ => trivial

lemma Orderly.append (ht : Orderly t) (hown : Orderly own) : Orderly (t ++ own) := by
  constructor
  · intro l q hq
    rcases concat_prefix_append hq with hleft | ⟨l, rfl, hright⟩
    · exact ht.prepared l q hleft
    · exact (hown.prepared l q hright).prepend t
  · intro l q op hq hop
    rcases concat_prefix_append hq with hleft | ⟨l, rfl, hright⟩
    · exact (ht.followed l q op hleft hop).trans (List.prefix_append t own)
    · rw [List.append_assoc, List.prefix_append_right_inj]
      exact hown.followed l q op hright hop

lemma WrittenBack.append (h : WrittenBack t) (hown : NoCopy own) : WrittenBack (t ++ own) := by
  obtain ⟨l, k, r, rfl, hr⟩ := h
  exact ⟨l, k, r ++ own, by simp, hr.append hown⟩

lemma WrittenBack.prepend (h : WrittenBack own) (t : List Request) : WrittenBack (t ++ own) := by
  obtain ⟨l, k, r, rfl, hr⟩ := h
  exact ⟨t ++ l, k, r, by simp, hr⟩

lemma recording_honours {σ ε : Type} (H : Handler Request σ ε) :
    (upkeep licence).HonouredBy H.recording requests := by
  intro q s r s' _ hr
  rw [Handler.recording] at hr
  split at hr
  · cases hr
    simp [upkeep, requests]
  · cases hr

/-- What holds of the core and of all calls so far. -/
structure Upheld (c : SecondaryCore) (log : List Episode) : Prop where
  orderly : Orderly (trace log)
  loaded : c.state = .imageLoaded → WrittenBack (trace log)
  cleared : ∀ earlier e, earlier ++ [e] <+: log → ∀ l q, l ++ [q] <+: e.requests → q.LetsGo →
    e.call = .operate .release ∧ FlagCleared c.flag l ∧ WrittenBack (trace earlier ++ l)

variable {σ ε : Type} {H : Handler Request σ ε} {c c' : SecondaryCore} {log : List Episode}

lemma Upheld.call (h : Upheld c log) {k : Call} {destination : Buffer} (hfits : destination.Fits)
    {s : σ} {s' : σ × List (Event Request)}
    (run : (k.program destination c).run H.recording (s, []) = (.ok c', s')) :
    Upheld c' (log ++ [⟨k, requests s'⟩]) := by
  have hempty : Kept (k.Licensed c) [] := fun l q hq => by simp at hq
  obtain ⟨hsettled, hkept⟩ := ((Call.program_settled hfits c k).and_invariant hempty
    (by rintro own q _ _ hown hq rfl; exact hown.append hq)).run (recording_honours H) run
  have htrace : trace (log ++ [⟨k, requests s'⟩]) = trace log ++ requests s' := by simp [trace]
  refine ⟨?_, ?_, ?_⟩
  · rw [htrace]
    exact h.orderly.append (hkept.orderly hsettled.due)
  · intro hc'
    rw [htrace]
    rcases hsettled.loaded hc' with hback | ⟨hc, hcopies⟩
    · exact hback.prepend _
    · exact (h.loaded hc).append hcopies
  · rw [hsettled.flag]
    intro earlier e he l q hq hgo
    rcases concat_prefix_concat he with ⟨rfl, rfl⟩ | he
    · obtain ⟨_, ⟨hk, hc, rfl⟩, hcleared⟩ := (hkept l q hq).cleared hgo
      exact ⟨hk, hcleared, (h.loaded hc).append hcleared.quiet.copies⟩
    · exact h.cleared earlier e he l q hq hgo

lemma Course.upheld {s : σ} (h : Course H c s log) : Upheld c log := by
  induction h with
  | start flag verify releaseSpin s =>
    exact ⟨⟨fun l q hq => by simp [trace] at hq, fun l q op hq => by simp [trace] at hq⟩, nofun,
      fun earlier e he => by simp at he⟩
  | call k destination fits before run ih => exact ih.call fits run
  | elsewhere s' before ih => exact ih

/-!
### What the cache has on record
-/

/-- What a cache that keeps a record has of some requests. -/
def recordOf (t : List Request) : Cache.Record :=
  (t.filterMap fun | .maintain op => some op.toOp | _ => none).toArray

/-- In the record, all that was stored and copied was written back, and all that was loaded and copied
was dropped. Nothing is on record that was not done. -/
structure Recorded (record : Cache.Record) (t : List Request) : Prop where
  store : ∀ flag value, Request.storeFlag flag value ∈ t →
    ∀ range : Span, range.Measures flag.extent → record.cleaned range = true
  load : ∀ flag, Request.loadFlag flag ∈ t →
    ∀ range : Span, range.Measures flag.extent → record.invalidated range = true
  copy : ∀ addr image, Request.copy addr image ∈ t →
    ∀ range : Span, range.Measures ⟨addr.toNat, image.size⟩ →
      record.cleaned range = true ∧ record.invalidated range = true
  cleaned : ∀ range, record.cleaned range = true →
    ∃ op, Request.maintain op ∈ t ∧ op.kind ≠ .invalidate ∧ op.range.covers range = true
  invalidated : ∀ range, record.invalidated range = true →
    ∃ op, Request.maintain op ∈ t ∧ op.kind ≠ .clean ∧ op.range.covers range = true

/-- What is looked up in the record is looked up in the requests. -/
lemma any_recordOf {does : Cache.Kind → Bool} {range : Span} :
    ((recordOf t).any fun op => does op.kind && op.range.covers range) = true ↔
      ∃ op, Request.maintain op ∈ t ∧ does op.kind = true ∧ op.range.covers range = true := by
  simp only [recordOf, List.any_toArray, List.any_filterMap, List.any_eq_true]
  constructor
  · rintro ⟨q, hq, hdone⟩
    cases q with
    | maintain op => exact ⟨op, hq, by simpa using hdone⟩
    | _ => cases hdone
  · rintro ⟨op, hop, hdone⟩
    exact ⟨_, hop, by simpa using hdone⟩

lemma Maintenance.Exactly.any_recordOf {does : Cache.Kind → Bool} {kind : Cache.Kind} {e : Extent}
    {op : Maintenance} {range : Span} (h : op.Exactly kind e) (hmem : Request.maintain op ∈ t)
    (hkind : does kind = true) (hrange : range.Measures e) :
    ((recordOf t).any fun op => does op.kind && op.range.covers range) = true := by
  have hcovers : op.range.covers range = true :=
    (h.range.covers_iff hrange).mpr ⟨Nat.le_refl _, Nat.le_refl _⟩
  exact Boot.any_recordOf.mpr ⟨op, hmem, by rw [h.kind, hkind], hcovers⟩

/-- A request is somewhere, after others. -/
lemma exists_concat_prefix {q : Request} (h : q ∈ t) : ∃ l, l ++ [q] <+: t := by
  obtain ⟨l, r, rfl⟩ := List.append_of_mem h
  exact ⟨l, r, by simp⟩

/-- The maintenance that has to follow a request has been made too. -/
lemma Orderly.upkeep_mem (h : Orderly t) {q : Request} (hq : q ∈ t) {op : Maintenance}
    (hop : q.upkeep = some op) : Request.maintain op ∈ t := by
  obtain ⟨l, hl⟩ := exists_concat_prefix hq
  exact (h.followed l q op hl hop).subset (by simp)

lemma Orderly.recorded (h : Orderly t) : Recorded (recordOf t) t where
  store flag value hq range hrange :=
    flag.exactly_clean.any_recordOf (h.upkeep_mem hq rfl) rfl hrange
  load flag hq range hrange := by
    obtain ⟨l, hl⟩ := exists_concat_prefix hq
    have hmem : Request.maintain flag.invalidate ∈ l := (h.prepared l _ hl).subset (by simp)
    have hprefix : l <+: t := (List.prefix_append l _).trans hl
    exact flag.exactly_invalidate.any_recordOf (List.IsPrefix.subset hprefix hmem) rfl hrange
  copy addr image hq range hrange := by
    obtain ⟨l, hl⟩ := exists_concat_prefix hq
    have hmem := h.upkeep_mem hq rfl
    have hexactly := Copy.exactly_upkeep ⟨addr, image, h.prepared l _ hl⟩
    constructor
    · exact hexactly.any_recordOf hmem rfl hrange
    · exact hexactly.any_recordOf hmem rfl hrange
  cleaned range hrange := by
    obtain ⟨op, hmem, hkind, hcovers⟩ := any_recordOf.mp hrange
    exact ⟨op, hmem, fun h => by simp [h, Cache.Kind.writesBack] at hkind, hcovers⟩
  invalidated range hrange := by
    obtain ⟨op, hmem, hkind, hcovers⟩ := any_recordOf.mp hrange
    exact ⟨op, hmem, fun h => by simp [h, Cache.Kind.discards] at hkind, hcovers⟩

/-!
### The law
-/

/-- The order of accesses, maintenance and resets in the requests of some calls, for a core with a
flag of its own. -/
structure Maintained (flag : BootFlag) (log : List Episode) : Prop where
  /-- What is stored in a flag is written back at once. -/
  store : ∀ l f value, l ++ [.storeFlag f value] <+: trace log →
    ∃ op : Maintenance, op.Exactly .clean f.extent ∧
      l ++ [.storeFlag f value, .maintain op] <+: trace log
  /-- A flag is dropped from the cache right before it is loaded. -/
  load : ∀ l f, l ++ [.loadFlag f] <+: trace log →
    ∃ op : Maintenance, op.Exactly .invalidate f.extent ∧ [.maintain op] <:+ l
  /-- An image that was copied is written back and dropped at once. -/
  copy : ∀ l addr image, l ++ [.copy addr image] <+: trace log →
    ∃ op : Maintenance, op.Exactly .cleanInvalidate ⟨addr.toNat, image.size⟩ ∧
      l ++ [.copy addr image, .maintain op] <+: trace log
  /-- This is done once, and to nothing else. -/
  once : ∀ l op, l ++ [.maintain op] <+: trace log → op.kind = .cleanInvalidate →
    ∃ addr image, op.Exactly .cleanInvalidate ⟨addr.toNat, image.size⟩ ∧
      [.copy addr image] <:+ l
  /-- Only then the image is read back, byte by byte. -/
  readBack : ∀ l addr offset, l ++ [.load addr offset] <+: trace log →
    ∃ image, ∃ op : Maintenance, offset < image.size ∧
      op.Exactly .cleanInvalidate ⟨addr.toNat, image.size⟩ ∧
      [.copy addr image, .maintain op] ++ (List.range offset).map (Request.load addr) <:+ l
  /-- The line of the core is let go in releases only. The same release has set the flag of the core to
  zero and written it back before, and the last image that was copied has been written back. -/
  release : ∀ earlier e, earlier ++ [e] <+: log → ∀ l value,
    l ++ [.reset (.write Reset.Line.rtCore.register value)] <+: e.requests →
    value &&& Reset.Line.rtCore.mask = 0 →
      e.call = .operate .release ∧
      (∃ op : Maintenance, op.Exactly .clean flag.extent ∧
        ∃ accesses : List (Access Reset.Register),
          l = [.storeFlag flag 0, .maintain op] ++ accesses.map Request.reset) ∧
      ∃ before addr image after, ∃ op : Maintenance,
        op.Exactly .cleanInvalidate ⟨addr.toNat, image.size⟩ ∧
        trace earlier ++ l = before ++ [.copy addr image, .maintain op] ++ after ∧
        ∀ addr' other, Request.copy addr' other ∉ after
  /-- A cache that keeps a record has all of this maintenance in it. -/
  recorded : Recorded (recordOf (trace log)) (trace log)

/-- Whatever answers the requests, and however the calls fail: every access to the memory that both
cores reach comes with the maintenance of the cache that it takes. -/
theorem course_maintained {s : σ} (h : Course H c s log) : Maintained c.flag log where
  store l f value hq := ⟨f.clean, f.exactly_clean, h.upheld.orderly.followed l _ _ hq rfl⟩
  load l f hq := ⟨f.invalidate, f.exactly_invalidate, h.upheld.orderly.prepared l _ hq⟩
  copy l addr image hq :=
    let k : Copy := ⟨addr, image, h.upheld.orderly.prepared l _ hq⟩
    ⟨k.upkeep, k.exactly_upkeep, h.upheld.orderly.followed l _ _ hq rfl⟩
  once l op hq hkind := by
    obtain ⟨k, rfl, hcopy⟩ := h.upheld.orderly.prepared l _ hq hkind
    exact ⟨k.addr, k.image, k.exactly_upkeep, hcopy⟩
  readBack l addr offset hq := by
    obtain ⟨k, rfl, hlt, hread⟩ := h.upheld.orderly.prepared l _ hq
    exact ⟨k.image, k.upkeep, hlt, k.exactly_upkeep, hread⟩
  release earlier e he l value hq hmask := by
    obtain ⟨hcall, ⟨accesses, hown⟩, before, k, after, htrace, hafter⟩ :=
      h.upheld.cleared earlier e he l _ hq ⟨rfl, hmask⟩
    refine ⟨hcall, ⟨_, c.flag.exactly_clean, accesses, hown⟩, ?_⟩
    exact ⟨before, k.addr, k.image, after, _, k.exactly_upkeep, htrace, hafter⟩
  recorded := h.upheld.orderly.recorded

/-- The machine after `n` images were copied, with the core still held. -/
def heldMachine (n : Nat) (byte : UInt8) : Machine :=
  { machineAfter n byte with
    controller := (Reset.Controller.fresh.assertAtPowerOn Reset.Line.rtCore.resetBit).2 }

/-- An image of one byte is loaded and read back. -/
def loaded : Episode where
  call := .operate (.load ⟨#[0x11]⟩)
  requests := [.copy single.addr ⟨#[0x11]⟩, .maintain (writeBack single.addr ⟨#[0x11]⟩),
    .load single.addr 0]

lemma fits_single : single.Fits := by decide

lemma course_loaded : Course (Machine.handler .none) (coreIn .imageLoaded) (heldMachine 1 0x11)
    [loaded] := by
  have hload : (loaded.call.program single (coreIn .heldInReset)).run
      (Machine.handler .none).recording (heldMachine 0 0, []) =
        (.ok (coreIn .imageLoaded), heldMachine 1 0x11,
          [⟨.load single.addr 0, (0x11 : UInt8)⟩,
            ⟨.maintain (writeBack single.addr ⟨#[0x11]⟩), ()⟩,
            ⟨.copy single.addr ⟨#[0x11]⟩, ()⟩]) := by
    simp only [loaded, Call.program, Operation.step, SecondaryCore.loadImage, mismatchFrom_single]
    rfl
  exact (Course.start .board true 0 (heldMachine 0 0)).call loaded.call single fits_single hload

/-- The core is held until it is released. -/
theorem course_maintained_release :
    (heldMachine 1 0x11).controller.holds .rtCore = true ∧ ∃ m own,
      Course (Machine.handler .none) (coreIn .released) m
        [loaded, ⟨.operate .release, own⟩] ∧
      m.controller.holds .rtCore = false ∧
      Maintained (coreIn .released).flag [loaded, ⟨.operate .release, own⟩] := by
  have hrelease : ∃ s', ((Call.operate .release).program single (coreIn .imageLoaded)).run
      (Machine.handler .none).recording (heldMachine 1 0x11, []) = (.ok (coreIn .released), s') ∧
        s'.1.controller.holds .rtCore = false :=
    ⟨_, rfl, by decide +kernel⟩
  obtain ⟨s', hrun, hfree⟩ := hrelease
  have hcourse := course_loaded.call (.operate .release) single fits_single hrun
  exact ⟨by decide +kernel, _, requests s', hcourse, hfree, course_maintained hcourse⟩

end Intercore.Boot
