import Intercore.Proofs.Semaphore.Contention
import Mathlib.Data.Set.Basic

/-!
# Mutual exclusion

A channel has at most one contender inside at any time, and it is the one whose key is in the
claim register.

A contender sees of the block only which channels hold its own key. No write of another key
changes that, so it can be followed through each call without regard to what the others do.
-/

namespace Intercore.Semaphore

/-- What a contender sees of the block, and where it stands. -/
structure View where
  /-- The registers that hold the contender's key. -/
  owned : Set UInt8
  standing : Standing

/-- A contender owns the channels that it is inside. -/
def View.Sound (v : View) : Prop := ∀ ch ∈ v.standing.inside, ch.index ∈ v.owned

/-- The requests of the contender with a key: it writes no other key. -/
def permitted (key : Key) : Request → Prop
  | .access (.read (.sem ch)) => ch.toNat < 32
  | .access (.write (.sem ch) w) => ch.toNat < 32 ∧ w.toUInt8 = key.raw
  | .access .pause => True
  | _ => False

/-- What the contender with a key can count on whatever the others do. In return it owns what it
is inside at each of its requests. -/
def contract (key : Key) : Contract Request View where
  allows v q := v.Sound ∧ permitted key q
  answers v
    | .access (.read (.sem ch)), (r : UInt32), v' => v' = v ∧ (r.toUInt8 = key.raw ↔ ch ∈ v.owned)
    | .access (.write (.sem ch) _), _, v' =>
      v'.standing = v.standing ∧ (ch ∈ v.owned → v'.owned = v.owned \ {ch}) ∧
        (ch ∉ v.owned → v.owned ⊆ v'.owned)
    | _, _, v' => v' = v

/-- How a call returns: the contender owns what it is inside then, and if the call was to release
a channel that it was inside, it did. -/
def Returns (k : Call) (r : Intercore.Request.Answer k) (v : View) : Prop :=
  View.Sound { v with standing := v.standing.after (.returned k r) } ∧
    (v.standing.leaving = true → k.released r = true)

/-!
### The calls of one contender
-/

variable {key : Key} {v : View} {ch : Channel}

lemma keeps_readKey {post : UInt8 → View → Prop} (hv : v.Sound)
    (h : ∀ k, (k = key.raw ↔ ch.index ∈ v.owned) → post k v) :
    (readKey ch).Keeps (contract key) post v := by
  refine ⟨⟨hv, index_toNat_lt ch⟩, ?_⟩
  rintro r _ ⟨rfl, hr⟩
  exact h _ hr

lemma keeps_writeKey {post : Unit → View → Prop} (hv : v.Sound)
    (h : ∀ v', v'.standing = v.standing → (ch.index ∈ v.owned → v'.owned = v.owned \ {ch.index}) →
      (ch.index ∉ v.owned → v.owned ⊆ v'.owned) → post () v') :
    (writeKey ch key).Keeps (contract key) post v := by
  refine ⟨⟨hv, index_toNat_lt ch, by simp⟩, ?_⟩
  rintro r v' ⟨hstanding, howned, hnot⟩
  exact h v' hstanding howned hnot

/-- What an attempt to lock a channel does to a view. -/
def Attempted (ch : Channel) (v : View) (r : Bool) (v' : View) : Prop :=
  v'.standing = v.standing ∧ v.owned ⊆ v'.owned ∧ (r = true → ch.index ∈ v'.owned)

lemma Attempted.trans {v v' v'' : View} {r r' : Bool} (h : Attempted ch v r v')
    (h' : Attempted ch v' r' v'') : Attempted ch v r' v'' :=
  ⟨h'.1.trans h.1, h.2.1.trans h'.2.1, h'.2.2⟩

lemma Attempted.sound {v' : View} {r : Bool} (h : Attempted ch v r v') (hv : v.Sound) :
    v'.Sound := by
  intro c hc
  rw [h.1] at hc
  exact h.2.1 (hv c hc)

/-- The key is only written where it was not, so nothing that is owned gets lost. -/
lemma keeps_tryLock (hv : v.Sound) : (tryLock ch key).Keeps (contract key) (Attempted ch v) v := by
  rw [tryLock, Program.bind_eq, Program.keeps_bind]
  apply keeps_readKey hv
  intro k hk
  by_cases hown : k = key.raw
  · simpa [hown, Attempted] using hk.mp hown
  by_cases hfree : k = 0
  · subst hfree
    have hnot : ch.index ∉ v.owned := fun h => hown (hk.mpr h)
    simp only [if_neg hown, ne_eq, not_true_eq_false, if_false, Program.bind_eq, Program.pure_eq,
      Program.keeps_bind]
    apply keeps_writeKey hv
    intro v' hstanding _ hsub
    -- others may have written in between, so only the second look tells who has the channel
    have htried : Attempted ch v false v' := ⟨hstanding, hsub hnot, nofun⟩
    apply keeps_readKey (htried.sound hv)
    intro k' hk'
    simpa [Attempted, hstanding] using ⟨hsub hnot, hk'.mp⟩
  · simp [hown, hfree, Attempted]

lemma keeps_lockWithin (hv : v.Sound) (attempts : Nat) :
    (lockWithin ch key attempts).Keeps (contract key) (Attempted ch v) v := by
  induction attempts generalizing v with
  | zero => simp [lockWithin, Attempted]
  | succ attempts ih =>
    rw [lockWithin, Program.bind_eq, Program.keeps_bind]
    apply (keeps_tryLock hv).mono
    intro r v' hr
    cases r with
    | true => exact hr
    | false =>
      refine ⟨⟨hr.sound hv, trivial⟩, ?_⟩
      rintro _ _ rfl
      exact (ih (hr.sound hv)).mono fun _ _ => hr.trans

lemma keeps_lockBounded (hv : v.Sound) (attempts : Nat) :
    (lockBounded ch key attempts).Keeps (contract key)
      (fun r v' => Attempted ch v (r.toOption.isSome) v') v := by
  rw [lockBounded, Program.bind_eq, Program.keeps_bind]
  apply (keeps_lockWithin hv attempts).mono
  intro r v' hr
  cases r with
  | true => exact hr
  | false =>
    simp only [Bool.false_eq_true, if_false, holder, Program.bind_eq, Program.pure_eq,
      Program.keeps_bind]
    apply keeps_readKey (hr.sound hv)
    intro k _
    exact hr

/-- What a release of a channel does to a view: it takes the channel out of what is owned, and is
refused only if it was not owned. -/
def Vacated (ch : Channel) (v : View) (r : Except LockError Unit) (v' : View) : Prop :=
  v'.standing = v.standing ∧ (ch.index ∈ v.owned ∧ r = .ok () ∧ v'.owned = v.owned \ {ch.index} ∨
    ch.index ∉ v.owned ∧ v'.owned = v.owned)

lemma keeps_unlock (hv : v.Sound) : (unlock ch key).Keeps (contract key) (Vacated ch v) v := by
  rw [unlock, Program.bind_eq, Program.keeps_bind]
  apply keeps_readKey hv
  intro k hk
  by_cases hown : k = key.raw
  · subst hown
    simp only [ne_eq, not_true_eq_false, if_false, Program.bind_eq, Program.pure_eq,
      Program.keeps_bind]
    apply keeps_writeKey hv
    intro v' hstanding howned _
    exact ⟨hstanding, .inl ⟨hk.mp rfl, rfl, howned (hk.mp rfl)⟩⟩
  · have hnot : ch.index ∉ v.owned := fun h => hown (hk.mpr h)
    simp [hown, hnot, Vacated]

/-- To begin a call is to be inside no more than before. -/
lemma View.Sound.begun (hv : v.Sound) (k : Call) :
    View.Sound { v with standing := v.standing.after (.begun k) } := by
  intro c hc
  simp only [Standing.after] at hc
  split at hc
  · exact hv c (Finset.mem_of_mem_erase hc)
  · exact hv c hc

/-- A call that tries to lock a channel returns as it should. -/
lemma Attempted.returns {k : Call} {r : Intercore.Request.Answer k} {b : Bool} {v' : View}
    (h : Attempted ch v b v') (hv : v.Sound) (hleaving : v.standing.leaving = false)
    (hlocked : k.locked? r = if b then some ch else none) : Returns k r v' := by
  obtain ⟨hstanding, hsub, hgot⟩ := h
  constructor
  · intro c hc
    simp only [Standing.after, hlocked, hstanding] at hc
    cases b with
    | false => exact hsub (hv c hc)
    | true =>
      rcases Finset.mem_insert.mp hc with rfl | hc
      · exact hgot rfl
      · exact hsub (hv c hc)
  · simp [hstanding, hleaving]

/-- So does a call that releases one. -/
lemma Vacated.returns {k : Call} {r : Except LockError Unit} {r' : Intercore.Request.Answer k}
    {v' : View} (h : Vacated ch { v with standing := v.standing.after (.begun k) } r v')
    (hv : v.Sound) (hk : k.releases? = some ch) (hlocked : k.locked? r' = none)
    (hreleased : r = .ok () → k.released r' = true) : Returns k r' v' := by
  obtain ⟨hstanding, howned⟩ := h
  simp only [Standing.after, hk] at hstanding howned
  constructor
  · intro c hc
    simp only [Standing.after, hlocked, hstanding, Finset.mem_erase] at hc
    rcases howned with ⟨-, -, h⟩ | ⟨-, h⟩
    · rw [h]
      exact ⟨hv c hc.2, fun heq => hc.1 (Channel.index_injective heq)⟩
    · rw [h]
      exact hv c hc.2
  · intro hleaving
    rcases howned with ⟨-, hr, -⟩ | ⟨hnot, -⟩
    · exact hreleased hr
    · rw [hstanding] at hleaving
      exact absurd (hv ch (by simpa using hleaving)) hnot

lemma keeps_call (k : Call) (hv : v.Sound) :
    (k.program key).Keeps (contract key) (Returns k)
      { v with standing := v.standing.after (.begun k) } := by
  have hbegun := hv.begun k
  cases k with
  | tryLock ch =>
    apply (keeps_tryLock hbegun).mono
    intro r _ h
    exact h.returns hv rfl (by cases r <;> rfl)
  | lockWith ch rounds =>
    apply (keeps_lockWithin hbegun rounds).mono
    intro r _ h
    exact h.returns hv rfl (by cases r <;> rfl)
  | lockBounded ch attempts =>
    apply (keeps_lockBounded hbegun attempts).mono
    intro r _ h
    exact h.returns hv rfl (by cases r <;> rfl)
  | unlock ch =>
    apply (keeps_unlock hbegun).mono
    intro _ _ h
    exact h.returns hv rfl rfl (by rintro rfl; rfl)
  | drop ch =>
    apply (keeps_unlock hbegun).mono
    intro _ _ h
    exact h.returns hv rfl rfl (by rintro rfl; rfl)

/-!
### All contenders together
-/

/-- The registers that hold a key. -/
def Block.ownedBy (b : Block) (key : Key) : Set UInt8 :=
  {ch | ∃ _ : ch.toNat < 32, b.sem[ch.toNat] = key.raw}

namespace Block

variable {b : Block} {side : Side} {key' : Key} {ch : UInt8}

lemma mem_ownedBy_claim (h : ch.toNat < 32) {c : UInt8} :
    c ∈ (b.claim side ⟨ch.toNat, h⟩ key.raw).ownedBy key' ↔
      ∃ _ : c.toNat < 32,
        (if ch = c then rewritten key.raw b.sem[c.toNat] else b.sem[c.toNat]) = key'.raw := by
  simp only [ownedBy, Set.mem_ofPred_eq, claim_sem, UInt8.toNat_inj]

lemma ownedBy_claim_of_ne (h : ch.toNat < 32) (hne : key ≠ key') :
    (b.claim side ⟨ch.toNat, h⟩ key.raw).ownedBy key' = b.ownedBy key' := by
  have hraw : key.raw ≠ key'.raw := fun heq => hne (by cases key; cases key'; simpa using heq)
  ext c
  rw [mem_ownedBy_claim]
  apply exists_congr
  intro hc
  split
  · exact rewritten_eq_iff hraw key'.ne_zero
  · rfl

lemma ownedBy_claim_of_mem (h : ch.toNat < 32) (hmem : ch ∈ b.ownedBy key) :
    (b.claim side ⟨ch.toNat, h⟩ key.raw).ownedBy key = b.ownedBy key \ {ch} := by
  obtain ⟨_, hch⟩ := hmem
  ext c
  rw [mem_ownedBy_claim]
  by_cases heq : ch = c
  · subst heq
    simp [hch, rewritten_self key.ne_zero, key.ne_zero.symm]
  · simp [heq, ownedBy, Ne.symm heq]

lemma ownedBy_subset_claim (h : ch.toNat < 32) (hmem : ch ∉ b.ownedBy key) :
    b.ownedBy key ⊆ (b.claim side ⟨ch.toNat, h⟩ key.raw).ownedBy key := by
  rintro c ⟨hc, hkey⟩
  rw [mem_ownedBy_claim]
  have hne : ch ≠ c := by
    rintro rfl
    exact hmem ⟨hc, hkey⟩
  exact ⟨hc, by simpa [hne] using hkey⟩

end Block

variable {ι : Type} [DecidableEq ι]

/-- Every call that was to release a channel the contender was inside has released it. -/
def AllReleased (h : History ι Call) : Prop :=
  ∀ before i k r, before ++ [(i, .returned k r)] <+: h → (standing i before).leaving = true →
    k.released r = true

/-- How the views of the contenders are tied to the block and to the history. -/
structure Agrees (team : Team ι) (h : History ι Call) (m : Machine) (v : ι → View) : Prop where
  owned : ∀ i, (v i).owned = m.block.ownedBy (team.key i)
  standing : ∀ i, (v i).standing = standing i h
  released : AllReleased h

namespace Agrees

variable {team : Team ι} {h : History ι Call} {m : Machine} {v : ι → View}

/-- A milestone changes where its contender stands, and nothing else. -/
lemma append (hv : Agrees team h m v) (i : ι) (e : Milestone Call)
    (he : ∀ k r, e = .returned k r → (v i).standing.leaving = true → k.released r = true) :
    Agrees team (h ++ [(i, e)]) m
      (Function.update v i { v i with standing := (v i).standing.after e }) where
  owned j := by
    by_cases hj : j = i
    · subst hj
      simpa using hv.owned j
    · simpa [Function.update_of_ne hj] using hv.owned j
  standing j := by
    rw [standing_append]
    by_cases hj : j = i
    · subst hj
      simp [hv.standing]
    · simp [Function.update_of_ne hj, Ne.symm hj, hv.standing]
  released before j k r hpre hleaving := by
    rcases List.prefix_concat_iff.mp hpre with heq | hpre
    · obtain ⟨rfl, hlast⟩ := List.append_inj' heq rfl
      simp only [List.cons.injEq, Prod.mk.injEq, and_true] at hlast
      obtain ⟨rfl, rfl⟩ := hlast
      exact he k r rfl (by rwa [hv.standing])
    · exact hv.released before j k r hpre hleaving

/-- A write of its own key by one contender changes the view of that contender only. -/
lemma claim (hv : Agrees team h m v) (i : ι) (side : Side) {ch : UInt8} (hch : ch.toNat < 32)
    (writes : Nat) :
    let b := { m.block with writes := writes }.claim side ⟨ch.toNat, hch⟩ (team.key i).raw
    Agrees team h { m with block := b }
      (Function.update v i { v i with owned := b.ownedBy (team.key i) }) where
  owned j := by
    by_cases hj : j = i
    · subst hj
      simp
    · have hne : team.key i ≠ team.key j := fun heq => hj (team.key_injective heq).symm
      rw [Function.update_of_ne hj, Block.ownedBy_claim_of_ne hch hne]
      exact hv.owned j
  standing j := by
    by_cases hj : j = i
    · subst hj
      simpa using hv.standing j
    · simpa [Function.update_of_ne hj] using hv.standing j
  released := hv.released

end Agrees

/-- What the block answers is what the contract of each contender promises it. -/
lemma Agrees.answer {team : Team ι} {h : History ι Call} {m : Machine} {v : ι → View}
    (hv : Agrees team h m v) (i : ι) (q : Request) (hq : (contract (team.key i)).allows (v i) q) :
    ∃ r m' w, Machine.handler (team.side i) q m = (.ok r, m') ∧
      (contract (team.key i)).answers (v i) q r w ∧ Agrees team h m' (Function.update v i w) := by
  match q, hq with
  | .access (.read (.sem ch)), ⟨_, hch⟩ =>
    have hch : ch.toNat < 32 := hch
    refine ⟨m.block.sem[ch.toNat].toUInt32, m, v i, by simp [Machine.handler, Block.handler, hch],
      ⟨rfl, ?_⟩, by rwa [Function.update_eq_self]⟩
    simp [hv.owned, Block.ownedBy, hch]
  | .access (.write (.sem ch) w), ⟨_, hch, hw⟩ =>
    refine ⟨(), _, _, ?_, ?_, hv.claim i (team.side i) hch (m.block.writes + 1)⟩
    · simp [Machine.handler, Block.handler, Block.writeSem_of_lt _ _ _ hch, hw]
    · refine ⟨rfl, ?_, ?_⟩
      · intro hmem
        rw [hv.owned i] at hmem ⊢
        exact Block.ownedBy_claim_of_mem (b := { m.block with writes := _ }) hch hmem
      · intro hmem
        rw [hv.owned i] at hmem ⊢
        exact Block.ownedBy_subset_claim (b := { m.block with writes := m.block.writes + 1 }) hch
          hmem
  | .access .pause, _ => exact ⟨(), m, v i, rfl, rfl, by rwa [Function.update_eq_self]⟩

lemma Team.invariant (team : Team ι) :
    team.ensemble.Invariant (fun i => contract (team.key i)) (fun _ => View.Sound)
      (fun _ => Returns) (Agrees team) where
  begin_call i k hv hrests _ :=
    ⟨_, hv.append i (.begun k) (by simp), keeps_call k hrests⟩
  answer i q hv hq := hv.answer i q hq
  return_call i k r hv hr := by
    refine ⟨_, hv.append i (.returned k r) ?_, hr.1⟩
    rintro _ _ ⟨⟩
    exact hr.2

lemma Team.holds_idle (team : Team ι) (m : Machine) :
    Ensemble.Holds (fun i => contract (team.key i)) (fun _ => View.Sound) (fun _ => Returns)
      (Agrees team) (.idle m) := by
  refine ⟨fun i => ⟨m.block.ownedBy (team.key i), {}⟩, ⟨fun _ => rfl, fun _ => rfl, ?_⟩, ?_⟩
  · intro before i k r hpre
    simp [Ensemble.State.idle] at hpre
  · intro i
    simp [Ensemble.Suits, Ensemble.State.idle, View.Sound]

def Inside (h : History ι Call) (i : ι) (ch : Channel) : Prop := ch ∈ (standing i h).inside

/-- A contender owns what it is inside at any time, be it between two calls or inside one. -/
lemma sound_of_suits {a : Activity Call Request}
    (h : Ensemble.Suits (contract key) View.Sound Returns a v) : v.Sound := by
  cases a with
  | ready script => exact h
  | inside k q rest script => exact h.1.1
  | stopped => exact h.elim

lemma Team.claimed_eq {team : Team ι} {s : Ensemble.State ι Call Request Machine}
    (hs : Ensemble.Holds (fun i => contract (team.key i)) (fun _ => View.Sound) (fun _ => Returns)
      (Agrees team) s) {i : ι} (hin : Inside s.history i ch) :
    s.shared.block.claimed ch = (team.key i).raw := by
  obtain ⟨v, hv, hsuits⟩ := hs
  have hmem : ch.index ∈ (v i).owned := by
    refine sound_of_suits (hsuits i) ch ?_
    rw [hv.standing]
    exact hin
  rw [hv.owned] at hmem
  obtain ⟨_, hkey⟩ := hmem
  simpa [Block.claimed] using hkey

/-- However the accesses of the contenders fall between each other, and whatever the block held
before: none of them is ever stopped, no two of them are inside one channel, the claim register of a
channel has the key of the one that is inside, and whoever leaves a channel is not refused. -/
theorem mutual_exclusion (team : Team ι) (m : Machine) (schedule : List (Ensemble.Move ι Call)) :
    let s := team.ensemble.run schedule (.idle m)
    (∀ i, s.activity i ≠ .stopped) ∧
      (∀ ch i j, Inside s.history i ch → Inside s.history j ch → i = j) ∧
      (∀ ch i, Inside s.history i ch → s.shared.block.claimed ch = (team.key i).raw) ∧
      ∀ before i k r, before ++ [(i, .returned k r)] <+: s.history →
        (standing i before).leaving = true → k.released r = true := by
  intro s
  have hs := team.invariant.run (team.holds_idle m) schedule
  have hclaimed := fun ch i (hin : Inside s.history i ch) => Team.claimed_eq hs hin
  refine ⟨hs.not_stopped, fun ch i j hi hj => team.key_injective ?_, hclaimed, ?_⟩
  · have hraw := (hclaimed ch i hi).symm.trans (hclaimed ch j hj)
    cases hki : team.key i
    cases hkj : team.key j
    simpa [hki, hkj] using hraw
  · obtain ⟨v, hv, -⟩ := hs
    exact hv.released

/-- One contender on each core. -/
def duo : Team Side where
  side := id
  key
    | .app => ⟨1, by decide⟩
    | .rt => ⟨2, by decide⟩
  key_injective := by
    intro i j h
    cases i <;> cases j <;> simp at h ⊢

/-- Both find the channel free before either of them writes its key. -/
example :
    let ch : Channel := ⟨0, by decide⟩
    let script := (Program.request (Call.tryLock ch)).bind fun _ => .done ()
    let s := duo.ensemble.run
      [.start .app script, .start .rt script, .proceed .app, .proceed .rt, .proceed .app,
        .proceed .rt, .proceed .rt, .proceed .app, .proceed .rt, .proceed .app]
      (.idle .fresh)
    Inside s.history .rt ch ∧ ¬ Inside s.history .app ch := by
  unfold Inside
  decide +kernel

end Intercore.Semaphore
