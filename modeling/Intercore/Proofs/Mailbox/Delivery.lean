import Intercore.Proofs.Mailbox.Traffic

/-!
# Delivery

On a lane that is used as it should be, what was obtained together with what is in flight is what
was sent.

The sender may write the slot while the lane is ready, and the receiver may read it while the lane
is full. A lane is never both, and none but the sender makes it full and none but the receiver
makes it ready. So whatever one of them has seen stays true until it acts on it.
-/

namespace Intercore.Mailbox

/-- What a context knows of the lane. -/
inductive View
  | idle
  /-- The lane is ready, and this is in its slot. -/
  | filling (slot : Message)
  /-- It has just sent this. -/
  | sent (msg : Message)
  /-- The lane is full, and this is in its slot. -/
  | reading (slot : Message)
  /-- It has just acknowledged this. -/
  | taken (msg : Message)
  deriving DecidableEq, Repr

namespace View

/-- The context has nothing left to do but to return. -/
def isFinal : View → Bool
  | sent _ | taken _ => true
  | _ => false

/-- Only the sender gets to know this. -/
def isSending : View → Bool
  | filling _ | sent _ => true
  | _ => false

/-- Only the receiver gets to know this. -/
def isReceiving : View → Bool
  | reading _ | taken _ => true
  | _ => false

/-- What was sent but is not in the history yet. -/
def sent? : View → Option Message
  | sent msg => some msg
  | _ => none

/-- What was obtained but is not in the history yet. -/
def taken? : View → Option Message
  | taken msg => some msg
  | _ => none

lemma nothing_to_say {v : View} (hv : v.isFinal = false) : v.sent? = none ∧ v.taken? = none := by
  cases v with
  | sent | taken => cases hv
  | _ => exact ⟨rfl, rfl⟩

/-- What is known of the lane is so. -/
def Fits (s : LaneState) : View → Prop
  | filling slot => s.ready = true ∧ s.slot = slot
  | reading slot => s.full = true ∧ s.slot = slot
  | _ => True

/-- The view of the one that touched the lane. -/
def after : View → Touch → View
  | filling slot, .put word value => filling (slot.setIfInBounds word value)
  | filling slot, .send => sent slot
  | reading slot, .acknowledge => taken slot
  | v, _ => v

/-- Whether a context with this view may touch the lane. -/
def permits : View → Touch → Bool
  | filling _, .put _ _ | filling _, .send | reading _, .acknowledge => true
  | _, _ => false

lemma eq_reading_of_permits {v : View} (h : v.permits .acknowledge = true) :
    ∃ m, v = .reading m := by
  cases v with
  | reading m => exact ⟨m, rfl⟩
  | _ => cases h

end View

namespace Traffic

variable {ι : Type} {t : Traffic ι} {i : ι}

/-!
### Calls that have nothing to do with the lane
-/

lemma trySend_aside {ch : Channel} (msg : Message)
    (h : ¬ (t.side i = t.lane.source ∧ ch = t.lane.channel)) :
    (trySend ch msg).All (t.lane.Aside (t.side i)) := by
  have hindex : ¬ (t.side i = t.lane.source ∧ ch.index = t.lane.channel.index) := by
    rintro ⟨hside, heq⟩
    exact h ⟨hside, Channel.index_injective heq⟩
  have hmask : ¬ (t.side i = t.lane.source ∧ t.lane.channel = ch) := by
    rintro ⟨hside, heq⟩
    exact h ⟨hside, heq.symm⟩
  apply trySend_all ⟨rfl, rfl⟩
  apply send_all
  · exact ⟨rfl, rfl⟩
  · intro word value
    simp [Lane.Aside, isServed, Lane.touch, ch.val_lt, hindex]
  · simp [Lane.Aside, isServed, Lane.touch, hmask]

lemma recv_aside {ch : Channel}
    (h : ¬ (t.side i = t.lane.source.peer ∧ ch = t.lane.channel)) :
    (recv ch).All (t.lane.Aside (t.side i)) := by
  have hmask : ¬ (t.side i = t.lane.source.peer ∧ t.lane.channel = ch) := by
    rintro ⟨hside, heq⟩
    exact h ⟨hside, heq.symm⟩
  apply recv_all
  · exact ⟨rfl, rfl⟩
  · exact ⟨rfl, rfl⟩
  · intro word
    simp [Lane.Aside, isServed, Lane.touch, ch.val_lt]
  · simp [Lane.Aside, isServed, Lane.touch, hmask]

/-!
### What the contexts expect
-/

variable [DecidableEq ι]

/-- What a context may learn from an access that does not touch the lane. -/
def Learns (t : Traffic ι) (i : ι) (v : View) : (q : Access Register) → Request.Answer q → View →
    Prop
  | .read .txsts, (r : UInt32), v' =>
    if i = t.sender ∧ v = .idle ∧ t.lane.channel.marked r then ∃ m, v' = .filling m else v' = v
  | .read .rxsts, (r : UInt32), v' =>
    if i = t.receiver ∧ v = .idle ∧ t.lane.channel.marked r then ∃ m, v' = .reading m else v' = v
  | .read (.rmdat ch word), (r : UInt32), v' =>
    v' = v ∧ ∀ m, v = .reading m → ch = t.lane.channel.index → m[word]? = some r
  | _, _, v' => v' = v

/-- What a context can count on. In return it touches the lane only when it may. -/
def contract (t : Traffic ι) (i : ι) : Contract (Access Register) View where
  allows v q :=
    isServed q = true ∧ v.isFinal = false ∧
      ∀ touch, t.lane.touch (t.side i) q = some touch → v.permits touch = true
  answers v q r v' :=
    match t.lane.touch (t.side i) q with
    | some touch => v' = v.after touch
    | none => t.Learns i v q r v'

/-- How a call returns: what the context knows is what the history is going to say. -/
def Returns (t : Traffic ι) (i : ι) (k : Call) (r : Request.Answer k) (v : View) : Prop :=
  v.sent? = (if i = t.sender then k.sentOn? t.lane.channel r else none) ∧
    v.taken? = (if i = t.receiver then k.obtainedFrom? t.lane.channel r else none)

lemma Learns.not_final {v : View} {q : Access Register} {r : Request.Answer q} {v' : View}
    (h : t.Learns i v q r v') (hv : v.isFinal = false) : v'.isFinal = false := by
  simp only [Learns] at h
  split at h
  · split at h
    · obtain ⟨m, rfl⟩ := h
      rfl
    · rwa [h]
  · split at h
    · obtain ⟨m, rfl⟩ := h
      rfl
    · rwa [h]
  · rwa [h.1]
  · rwa [h]

lemma keeps_aside {α : Type} {p : Prog α} {v : View} (hp : p.All (t.lane.Aside (t.side i)))
    (hv : v.isFinal = false) :
    p.Keeps (t.contract i) (fun _ v' => v'.isFinal = false) v := by
  refine hp.keeps hv ?_
  rintro q v ⟨hserved, htouch⟩ hv
  constructor
  · exact ⟨hserved, hv, by simp [htouch]⟩
  · intro r v' hr
    simp only [contract, htouch] at hr
    exact hr.not_final hv

/-- Touching the lane is all that a touch does to the view. -/
lemma keeps_write {r : Register} {value : UInt32} {v : View} (touch : Touch)
    (htouch : t.lane.touch (t.side i) (.write r value) = some touch)
    (hserved : isServed (.write r value) = true) (hv : v.isFinal = false)
    (hpermits : v.permits touch = true) :
    (write r value).Keeps (t.contract i) (fun _ v' => v' = v.after touch) v := by
  constructor
  · refine ⟨hserved, hv, ?_⟩
    intro other hother
    rw [htouch] at hother
    cases hother
    exact hpermits
  · intro _ v' hr
    simpa [contract, htouch] using hr

lemma keeps_put (m : Message) (word : Fin 4) (value : UInt32) :
    (write (.tmdat t.lane.channel.index word) value).Keeps (t.contract t.sender)
      (fun _ v' => v' = .filling (m.setIfInBounds word value)) (.filling m) :=
  keeps_write (.put word value) (by simp [Lane.touch, t.side_sender])
    (by simp [isServed, t.lane.channel.val_lt]) rfl rfl

lemma keeps_trigger (m : Message) :
    (write .txctl t.lane.channel.mask).Keeps (t.contract t.sender)
      (fun _ v' => v' = .sent m) (.filling m) :=
  keeps_write .send (by simp [Lane.touch, t.side_sender]) rfl rfl rfl

/-- What was in the slot before the words were written does not matter. -/
lemma keeps_fill (m msg : Message) :
    (fill t.lane.channel msg).Keeps (t.contract t.sender) (fun _ v' => v' = .sent msg)
      (.filling m) := by
  have hwords : #v[msg[0], msg[1], msg[2], msg[3]] = msg :=
    eq_words (by simp) (by simp) (by simp) (by simp)
  simp only [fill, Program.bind_eq, Program.keeps_bind]
  apply (t.keeps_put m 0 msg[0]).mono
  rintro _ _ rfl
  apply (t.keeps_put _ 1 msg[1]).mono
  rintro _ _ rfl
  apply (t.keeps_put _ 2 msg[2]).mono
  rintro _ _ rfl
  apply (t.keeps_put _ 3 msg[3]).mono
  rintro _ _ rfl
  apply (t.keeps_trigger _).mono
  rintro _ _ rfl
  exact congrArg View.sent ((set_words m _ _ _ _).trans hwords)

lemma keeps_isTxReady_idle :
    (isTxReady t.lane.channel).Keeps (t.contract t.sender)
      (fun ready v => if ready then ∃ m, v = .filling m else v = .idle) .idle := by
  refine ⟨⟨rfl, rfl, by simp [Lane.touch]⟩, ?_⟩
  intro r v hr
  simpa [contract, Lane.touch, Learns, Channel.marked] using hr

/-- Once the sender has seen that the lane is ready, it stays so. -/
lemma keeps_isTxReady_filling (m : Message) :
    (isTxReady t.lane.channel).Keeps (t.contract t.sender) (fun _ v => v = .filling m)
      (.filling m) := by
  refine ⟨⟨rfl, rfl, by simp [Lane.touch]⟩, ?_⟩
  intro r v hr
  simpa [contract, Lane.touch, Learns] using hr

lemma keeps_trySend (msg : Message) :
    (trySend t.lane.channel msg).Keeps (t.contract t.sender)
      (t.Returns t.sender (.trySend t.lane.channel msg)) .idle := by
  simp only [trySend, Program.bind_eq, Program.keeps_bind]
  apply keeps_isTxReady_idle.mono
  intro ready v hv
  cases ready with
  | false =>
    obtain rfl : v = .idle := hv
    simp [Returns, View.sent?, View.taken?, Call.sentOn?, Call.obtainedFrom?]
  | true =>
    obtain ⟨m, rfl⟩ : ∃ m, v = .filling m := hv
    simp only [send, if_true, Program.bind_eq, Program.pure_eq, Program.keeps_bind]
    apply (keeps_isTxReady_filling m).mono
    rintro _ _ rfl
    apply (keeps_fill m msg).mono
    rintro _ _ rfl
    simp [Returns, View.sent?, View.taken?, Call.sentOn?, Call.obtainedFrom?]

lemma keeps_isRxAvailable :
    (isRxAvailable t.lane.channel).Keeps (t.contract t.receiver)
      (fun available v => if available then ∃ m, v = .reading m else v = .idle) .idle := by
  refine ⟨⟨rfl, rfl, by simp [Lane.touch]⟩, ?_⟩
  intro r v hr
  simpa [contract, Lane.touch, Learns, Channel.marked] using hr

lemma keeps_get (m : Message) (word : Fin 4) :
    (read (.rmdat t.lane.channel.index word)).Keeps (t.contract t.receiver)
      (fun r v => m[word.val]? = some r ∧ v = .reading m) (.reading m) := by
  refine ⟨⟨by simp [isServed, t.lane.channel.val_lt], rfl, by simp [Lane.touch]⟩, ?_⟩
  intro r v hr
  obtain ⟨rfl, hword⟩ : t.Learns t.receiver (.reading m) _ r v := hr
  exact ⟨hword m rfl rfl, rfl⟩

lemma keeps_ack (m : Message) :
    (write .rxctl t.lane.channel.mask).Keeps (t.contract t.receiver)
      (fun _ v => v = .taken m) (.reading m) :=
  keeps_write .acknowledge (by simp [Lane.touch, t.side_receiver]) rfl rfl rfl

lemma keeps_recv :
    (recv t.lane.channel).Keeps (t.contract t.receiver)
      (t.Returns t.receiver (.recv t.lane.channel)) .idle := by
  simp only [recv, Program.bind_eq, Program.keeps_bind]
  refine ⟨⟨rfl, rfl, by simp [Lane.touch]⟩, ?_⟩
  rintro _ _ rfl
  apply keeps_isRxAvailable.mono
  intro available v hv
  cases available with
  | false =>
    obtain rfl : v = .idle := hv
    simp [Returns, View.sent?, View.taken?, Call.sentOn?, Call.obtainedFrom?]
  | true =>
    obtain ⟨m, rfl⟩ : ∃ m, v = .reading m := hv
    simp only [if_true, Program.pure_eq, Program.keeps_bind]
    apply (keeps_get m 0).mono
    rintro w₀ _ ⟨h₀, rfl⟩
    apply (keeps_get m 1).mono
    rintro w₁ _ ⟨h₁, rfl⟩
    apply (keeps_get m 2).mono
    rintro w₂ _ ⟨h₂, rfl⟩
    apply (keeps_get m 3).mono
    rintro w₃ _ ⟨h₃, rfl⟩
    apply (keeps_ack m).mono
    rintro _ _ rfl
    have hm := eq_words h₀ h₁ h₂ h₃
    simp [Returns, View.sent?, View.taken?, Call.sentOn?, Call.obtainedFrom?, hm]

/-- A call that has nothing to do with the lane leaves nothing to be said. -/
lemma keeps_call_aside {k : Call} (hk : k.program.All (t.lane.Aside (t.side i)))
    (hsent : i = t.sender → ∀ r, k.sentOn? t.lane.channel r = none)
    (hobtained : i = t.receiver → ∀ r, k.obtainedFrom? t.lane.channel r = none) :
    k.program.Keeps (t.contract i) (t.Returns i k) .idle := by
  apply (keeps_aside hk rfl).mono
  intro r v hv
  have hnone := View.nothing_to_say hv
  constructor
  · rw [hnone.1]
    split
    next hi => exact (hsent hi r).symm
    next => rfl
  · rw [hnone.2]
    split
    next hi => exact (hobtained hi r).symm
    next => rfl

lemma keeps_call {k : Call} (hk : t.permits i k = true) :
    k.program.Keeps (t.contract i) (t.Returns i k) .idle := by
  cases k with
  | trySend ch msg =>
    by_cases hlane : t.side i = t.lane.source ∧ ch = t.lane.channel
    · obtain rfl : i = t.sender := by simpa [permits, hlane] using hk
      obtain ⟨-, rfl⟩ := hlane
      exact keeps_trySend msg
    · refine keeps_call_aside (trySend_aside msg hlane) ?_ (fun _ _ => rfl)
      rintro rfl r
      have hch : ch ≠ t.lane.channel := fun heq => hlane ⟨t.side_sender, heq⟩
      cases r with
      | error e => rfl
      | ok u => exact if_neg hch
  | recv ch =>
    by_cases hlane : t.side i = t.lane.source.peer ∧ ch = t.lane.channel
    · obtain rfl : i = t.receiver := by simpa [permits, hlane] using hk
      obtain ⟨-, rfl⟩ := hlane
      exact keeps_recv
    · refine keeps_call_aside (recv_aside hlane) (fun _ _ => rfl) ?_
      rintro rfl r
      have hch : ch ≠ t.lane.channel := fun heq => hlane ⟨t.side_receiver, heq⟩
      cases r with
      | none => rfl
      | some msg => exact if_neg hch
  | access q =>
    have haside : t.lane.Aside (t.side i) q := by simpa [permits, Lane.Aside] using hk
    exact keeps_call_aside ⟨haside, fun _ => trivial⟩ (fun _ _ => rfl) (fun _ _ => rfl)

end Traffic

/-!
### All contexts together
-/

variable {ι : Type} [DecidableEq ι]

/-- How the views of the contexts are tied to the controller and to the history. -/
structure Agrees (t : Traffic ι) (h : History ι Call) (c : Controller) (v : ι → View) : Prop where
  /-- A lane is either ready or full. -/
  exclusive : (c.lane t.lane).full = !(c.lane t.lane).ready
  fits : ∀ i, (v i).Fits (c.lane t.lane)
  sending : ∀ i, (v i).isSending = true → i = t.sender
  receiving : ∀ i, (v i).isReceiving = true → i = t.receiver
  /-- Nothing is lost, doubled or out of order. -/
  order : t.obtained h ++ ((v t.receiver).taken?.toList ++ (c.lane t.lane).inFlight.toList) =
    t.sent h ++ (v t.sender).sent?.toList

/-- A context may come from one view to another while the lane is as it is. -/
structure Traffic.Admits (t : Traffic ι) (i : ι) (s : LaneState) (v w : View) : Prop where
  fits : w.Fits s
  sending : w.isSending = true → i = t.sender
  receiving : w.isReceiving = true → i = t.receiver
  sent : w.sent? = v.sent?
  taken : w.taken? = v.taken?

/-- What a context knows of the lane stays right when it learns more. -/
lemma Traffic.Admits.exists_learns {t : Traffic ι} {i : ι} {c : Controller} {u : View}
    (hu : t.Admits i (c.lane t.lane) u u) {q : Access Register} {r : Request.Answer q}
    (hserved : isServed q = true) (hr : (Controller.handler (t.side i) q c).1 = .ok r) :
    ∃ w, t.Learns i u q r w ∧ t.Admits i (c.lane t.lane) u w := by
  have hshows := Controller.shows_lane (l := t.lane) hserved hr
  match q with
  | .read .txsts =>
    by_cases hlearn : i = t.sender ∧ u = .idle ∧ t.lane.channel.marked r
    · refine ⟨.filling (c.lane t.lane).slot, ?_, ?_⟩
      · rw [Traffic.Learns, if_pos hlearn]
        exact ⟨_, rfl⟩
      · obtain ⟨rfl, rfl, hmarked⟩ := hlearn
        have hready : (c.lane t.lane).ready = true := (hshows t.side_sender).symm.trans hmarked
        exact ⟨⟨hready, rfl⟩, fun _ => rfl, (absurd · Bool.false_ne_true), rfl, rfl⟩
    · exact ⟨u, by rw [Traffic.Learns, if_neg hlearn], hu⟩
  | .read .rxsts =>
    by_cases hlearn : i = t.receiver ∧ u = .idle ∧ t.lane.channel.marked r
    · refine ⟨.reading (c.lane t.lane).slot, ?_, ?_⟩
      · rw [Traffic.Learns, if_pos hlearn]
        exact ⟨_, rfl⟩
      · obtain ⟨rfl, rfl, hmarked⟩ := hlearn
        have hfull : (c.lane t.lane).full = true := (hshows t.side_receiver).symm.trans hmarked
        exact ⟨⟨hfull, rfl⟩, (absurd · Bool.false_ne_true), fun _ => rfl, rfl, rfl⟩
    · exact ⟨u, by rw [Traffic.Learns, if_neg hlearn], hu⟩
  | .read (.rmdat ch word) =>
    refine ⟨u, ⟨rfl, ?_⟩, hu⟩
    rintro m rfl rfl
    obtain rfl : i = t.receiver := hu.receiving rfl
    obtain ⟨-, rfl⟩ : (c.lane t.lane).full = true ∧ (c.lane t.lane).slot = m := hu.fits
    exact hshows t.side_receiver rfl
  | .read .txctl | .read .rxctl | .read .inten | .read .intsts | .read (.tmdat _ _) | .write _ _
  | .pause => exact ⟨u, rfl, hu⟩

namespace Agrees

variable {t : Traffic ι} {h h' : History ι Call} {c c' : Controller} {v : ι → View} {i : ι}
  {w : View}

/-- What has to be shown when the view of one context changes. -/
lemma update (hv : Agrees t h c v) (hexclusive : (c'.lane t.lane).full = !(c'.lane t.lane).ready)
    (hfits : w.Fits (c'.lane t.lane)) (hothers : ∀ j ≠ i, (v j).Fits (c'.lane t.lane))
    (hsending : w.isSending = true → i = t.sender)
    (hreceiving : w.isReceiving = true → i = t.receiver)
    (horder : t.obtained h' ++
        ((Function.update v i w t.receiver).taken?.toList ++ (c'.lane t.lane).inFlight.toList) =
      t.sent h' ++ (Function.update v i w t.sender).sent?.toList) :
    Agrees t h' c' (Function.update v i w) where
  exclusive := hexclusive
  fits := (Function.forall_update_iff v fun _ w => w.Fits _).mpr ⟨hfits, hothers⟩
  sending := (Function.forall_update_iff v fun j w => w.isSending = true → j = t.sender).mpr
    ⟨hsending, fun j _ => hv.sending j⟩
  receiving := (Function.forall_update_iff v fun j w => w.isReceiving = true → j = t.receiver).mpr
    ⟨hreceiving, fun j _ => hv.receiving j⟩
  order := horder

lemma learn (hv : Agrees t h c v) (hlane : c'.lane t.lane = c.lane t.lane)
    (hw : t.Admits i (c.lane t.lane) (v i) w) : Agrees t h c' (Function.update v i w) := by
  have hsame : ∀ j, (Function.update v i w j).sent? = (v j).sent? ∧
      (Function.update v i w j).taken? = (v j).taken? :=
    (Function.forall_update_iff v fun j w => w.sent? = (v j).sent? ∧ w.taken? = (v j).taken?).mpr
      ⟨⟨hw.sent, hw.taken⟩, fun _ _ => ⟨rfl, rfl⟩⟩
  refine hv.update ?_ ?_ ?_ hw.sending hw.receiving ?_
  · rw [hlane, hv.exclusive]
  · rw [hlane]
    exact hw.fits
  · rw [hlane]
    exact fun j _ => hv.fits j
  · rw [hlane, (hsame _).1, (hsame _).2, hv.order]

/-- While one context may touch the lane, the others know nothing of it. -/
lemma fits_others (hv : Agrees t h c v) {touch : Touch} (hpermits : (v i).permits touch = true)
    {j : ι} (hj : j ≠ i) (s : LaneState) : (v j).Fits s := by
  have hi := hv.fits i
  have hfits := hv.fits j
  have hexcl := hv.exclusive
  cases hvj : v j with
  | idle | sent | taken => trivial
  | filling m =>
    have hsender : j = t.sender := hv.sending j (by rw [hvj]; rfl)
    rw [hvj] at hfits
    cases hvi : v i with
    | filling m' => exact absurd (hsender.trans (hv.sending i (by rw [hvi]; rfl)).symm) hj
    | reading m' =>
      rw [hvi] at hi
      simp [hi.1, hfits.1] at hexcl
    | _ => simp [hvi, View.permits] at hpermits
  | reading m =>
    have hreceiver : j = t.receiver := hv.receiving j (by rw [hvj]; rfl)
    rw [hvj] at hfits
    cases hvi : v i with
    | reading m' => exact absurd (hreceiver.trans (hv.receiving i (by rw [hvi]; rfl)).symm) hj
    | filling m' =>
      rw [hvi] at hi
      simp [hi.1, hfits.1] at hexcl
    | _ => simp [hvi, View.permits] at hpermits

lemma touch (hv : Agrees t h c v) {touch : Touch} (hpermits : (v i).permits touch = true)
    (hlane : c'.lane t.lane = (c.lane t.lane).after touch) :
    Agrees t h c' (Function.update v i ((v i).after touch)) := by
  have hothers : ∀ j ≠ i, (v j).Fits (c'.lane t.lane) := fun j hj => hv.fits_others hpermits hj _
  have hfits := hv.fits i
  have hexcl := hv.exclusive
  have horder := hv.order
  have hne := t.sender_ne_receiver
  cases hvi : v i with
  | idle | sent | taken => simp [hvi, View.permits] at hpermits
  | filling m =>
    obtain rfl : i = t.sender := hv.sending i (by rw [hvi]; rfl)
    rw [hvi] at hfits
    obtain ⟨hready, rfl⟩ : (c.lane t.lane).ready = true ∧ (c.lane t.lane).slot = m := hfits
    cases touch with
    | acknowledge => simp [hvi, View.permits] at hpermits
    | put word value =>
      refine hv.update ?_ ?_ hothers (fun _ => rfl) (absurd · Bool.false_ne_true) ?_
      · simpa [hlane, LaneState.after] using hexcl
      · simp [hlane, LaneState.after, View.after, View.Fits, hready]
      · simpa [LaneState.inFlight, hlane, LaneState.after, View.after, View.sent?, hvi, hready, hexcl,
          hne.symm] using horder
    | send =>
      refine hv.update ?_ trivial hothers (fun _ => rfl) (absurd · Bool.false_ne_true) ?_
      · simp [hlane, LaneState.after]
      · have hsent := congrArg (· ++ [(c.lane t.lane).slot]) horder
        simpa [LaneState.inFlight, hlane, LaneState.after, View.after, View.sent?, hvi, hready, hexcl,
          hne.symm] using hsent
  | reading m =>
    obtain rfl : i = t.receiver := hv.receiving i (by rw [hvi]; rfl)
    rw [hvi] at hfits
    obtain ⟨hfull, rfl⟩ : (c.lane t.lane).full = true ∧ (c.lane t.lane).slot = m := hfits
    cases touch with
    | send | put => simp [hvi, View.permits] at hpermits
    | acknowledge =>
      refine hv.update ?_ trivial hothers (absurd · Bool.false_ne_true) (fun _ => rfl) ?_
      · simp [hlane, LaneState.after, hfull]
      · simpa [LaneState.inFlight, hlane, LaneState.after, View.after, View.taken?, hvi, hfull, hexcl,
          hne] using horder

lemma admits_self (hv : Agrees t h c v) (i : ι) : t.Admits i (c.lane t.lane) (v i) (v i) :=
  ⟨hv.fits i, hv.sending i, hv.receiving i, rfl, rfl⟩

lemma exists_learns (hv : Agrees t h c v) (i : ι) {q : Access Register} {r : Request.Answer q}
    (hserved : isServed q = true) (hr : (Controller.handler (t.side i) q c).1 = .ok r) :
    ∃ w, t.Learns i (v i) q r w ∧ t.Admits i (c.lane t.lane) (v i) w :=
  (hv.admits_self i).exists_learns hserved hr

lemma answer (hv : Agrees t h c v) (i : ι) (q : Access Register)
    (hq : (t.contract i).allows (v i) q) :
    ∃ r c' w, Controller.handler (t.side i) q c = (.ok r, c') ∧
      (t.contract i).answers (v i) q r w ∧ Agrees t h c' (Function.update v i w) := by
  obtain ⟨hserved, hfinal, hpermits⟩ := hq
  obtain ⟨r, hr, hlane⟩ := Controller.handler_lane (t.side i) c t.lane hserved
  refine ⟨r, (Controller.handler (t.side i) q c).2, ?_⟩
  cases htouch : t.lane.touch (t.side i) q with
  | some touch =>
    rw [htouch] at hlane
    refine ⟨(v i).after touch, Prod.ext hr rfl, ?_, hv.touch (hpermits touch htouch) hlane⟩
    simp [Traffic.contract, htouch]
  | none =>
    rw [htouch] at hlane
    obtain ⟨w, hw, hadmits⟩ := hv.exists_learns i hserved hr
    refine ⟨w, Prod.ext hr rfl, ?_, hv.learn hlane hadmits⟩
    simpa [Traffic.contract, htouch] using hw

lemma begun (hv : Agrees t h c v) (i : ι) (k : Call) : Agrees t (h ++ [(i, .begun k)]) c v where
  exclusive := hv.exclusive
  fits := hv.fits
  sending := hv.sending
  receiving := hv.receiving
  order := by simpa [Traffic.obtained, Traffic.sent] using hv.order

/-- When a call returns, the history says what the context knew. -/
lemma returned (hv : Agrees t h c v) {k : Call} {r : Request.Answer k}
    (hr : t.Returns i k r (v i)) :
    Agrees t (h ++ [(i, .returned k r)]) c (Function.update v i .idle) := by
  have hsent : (if i = t.sender then k.sentOn? t.lane.channel r else none).toList ++
      (Function.update v i .idle t.sender).sent?.toList = (v t.sender).sent?.toList := by
    by_cases hi : i = t.sender
    · subst hi
      simpa [View.sent?] using congrArg Option.toList hr.1.symm
    · simp [hi, Function.update_of_ne (Ne.symm hi)]
  have htaken : (if i = t.receiver then k.obtainedFrom? t.lane.channel r else none).toList ++
      (Function.update v i .idle t.receiver).taken?.toList = (v t.receiver).taken?.toList := by
    by_cases hi : i = t.receiver
    · subst hi
      simpa [View.taken?] using congrArg Option.toList hr.2.symm
    · simp [hi, Function.update_of_ne (Ne.symm hi)]
  refine hv.update hv.exclusive trivial (fun j _ => hv.fits j) nofun nofun ?_
  calc t.obtained (h ++ [(i, .returned k r)]) ++
        ((Function.update v i .idle t.receiver).taken?.toList ++ (c.lane t.lane).inFlight.toList)
      = t.obtained h ++ ((v t.receiver).taken?.toList ++ (c.lane t.lane).inFlight.toList) := by
        rw [← htaken]
        simp [Traffic.obtained]
    _ = t.sent h ++ (v t.sender).sent?.toList := hv.order
    _ = t.sent (h ++ [(i, .returned k r)]) ++
        (Function.update v i .idle t.sender).sent?.toList := by
        rw [← hsent]
        simp [Traffic.sent]

end Agrees

lemma Traffic.invariant (t : Traffic ι) :
    t.ensemble.Invariant t.contract (fun _ v => v = .idle) t.Returns (Agrees t) where
  begin_call {h c v} i k hv hrests hk := by
    refine ⟨v i, ?_, ?_⟩
    · rw [Function.update_eq_self]
      exact hv.begun i k
    · rw [hrests]
      exact keeps_call hk
  answer i q hv hq := hv.answer i q hq
  return_call i k r hv hr := ⟨.idle, hv.returned hr, rfl⟩

/-- At a controller that was just reset, contexts that have done nothing yet rest. -/
lemma Traffic.holds_idle (t : Traffic ι) :
    Ensemble.Holds t.contract (fun _ v => v = .idle) t.Returns (Agrees t) (.idle .fresh) := by
  obtain ⟨hready, hfull⟩ := Controller.lane_fresh t.lane
  refine ⟨fun _ => .idle, ⟨?_, fun _ => trivial, nofun, nofun, ?_⟩, fun _ => rfl⟩
  · simp [Ensemble.State.idle, hready, hfull]
  · simp [Traffic.obtained, Traffic.sent, LaneState.inFlight, hfull, History.results,
      Ensemble.State.idle, View.sent?, View.taken?]

/-- Between two accesses no context has anything to say that the history does not say yet. -/
lemma Traffic.not_final_of_suits {t : Traffic ι} {i : ι} {a : Activity Call (Access Register)}
    {v : View} (h : Ensemble.Suits (t.contract i) (fun v => v = .idle) (t.Returns i) a v) :
    v.isFinal = false := by
  cases a with
  | ready script =>
    obtain rfl : v = .idle := h
    rfl
  | inside k q rest script => exact h.1.2.1
  | stopped => exact h.elim

/-- However the accesses of the contexts fall between each other: no context is ever stopped, and what
the receiver obtained, together with what is in flight, is what the sender sent. No access replaces a
message on the lane.

To receive may also mean to handle interrupts. That is a script of calls, and what it does with
the messages may be any script. -/
theorem exactly_once (t : Traffic ι) (schedule : List (Ensemble.Move ι Call)) :
    let s := t.ensemble.run schedule (.idle .fresh)
    (∀ i, s.activity i ≠ .stopped) ∧
      t.obtained s.history ++ (s.shared.lane t.lane).inFlight.toList = t.sent s.history ∧
      (∀ i k q rest script, s.activity i = .inside k q rest script →
        (Controller.handler (t.side i) q s.shared).2.overwrites =
            s.shared.overwrites + popCount (overwritten (t.side i) s.shared q) ∧
          (t.side i = t.lane.source →
            t.lane.channel.marked (overwritten (t.side i) s.shared q) = false)) ∧
      ∀ (β : Type) (deliver : Channel → Message → Program Call β),
        (interruptCalls deliver).interpret Call.program =
          handleInterrupt fun ch msg => (deliver ch msg).interpret Call.program := by
  intro s
  have hrun := t.invariant.run t.holds_idle schedule
  have hserved := hrun.not_stopped
  obtain ⟨v, hv, hsuits⟩ := hrun
  have hsaid := fun i => View.nothing_to_say (Traffic.not_final_of_suits (hsuits i))
  refine ⟨hserved, ?_, ?_, fun _ => interpret_interruptCalls⟩
  · have horder := hv.order
    rw [(hsaid t.receiver).2, (hsaid t.sender).1] at horder
    simpa using horder
  · intro i k q rest script hinside
    have hi := hsuits i
    rw [hinside] at hi
    refine ⟨Controller.handler_overwrites _ q _, fun hside => marked_overwritten hside ?_⟩
    intro htouch
    have hpermits := hi.1.2.2 _ htouch
    have hfits := hv.fits i
    cases hvi : v i with
    | filling m =>
      rw [hvi] at hfits
      exact hfits.1
    | _ => simp [hvi, View.permits] at hpermits

/-- The first channel, from the application cluster to the real-time core. -/
def firstLane : Traffic Side where
  lane := ⟨⟨0, channelCount_pos⟩, .app⟩
  side := id
  sender := .app
  receiver := .rt
  side_sender := rfl
  side_receiver := rfl

/-- The receiver begins before there is a message, and the sender overtakes it. -/
example :
    let msg : Message := #v[1, 2, 3, 4]
    let send := (Program.request (Call.trySend firstLane.lane.channel msg)).bind fun _ => .done ()
    let recv := (Program.request (Call.recv firstLane.lane.channel)).bind fun _ => .done ()
    let s := firstLane.ensemble.run
      ([.start .app send, .start .rt recv, .proceed .rt] ++ List.replicate 8 (.proceed .app) ++
        List.replicate 7 (.proceed .rt))
      (.idle .fresh)
    firstLane.obtained s.history = [msg] ∧ firstLane.sent s.history = [msg] ∧
      (s.shared.lane firstLane.lane).inFlight = none := by
  decide +kernel

end Intercore.Mailbox
