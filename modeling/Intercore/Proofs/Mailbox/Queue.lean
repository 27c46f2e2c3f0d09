import Intercore.Mailbox.Outbox
import Intercore.Proofs.Mailbox.Operation

/-!
# Outboxes are queues

An outbox together with the slot behind it is a queue: what was accepted is received, in order and
once. The queue is said first, as it would be without hardware. Then every step that is made with an
outbox is shown to be a step of it.
-/

namespace Intercore.Mailbox

/-- What is done with an outbox. It is the other core that receives, and when nothing is done only
the others do something. -/
inductive Step
  | post (msg : Message)
  | pump
  | recv
  | idle
  deriving DecidableEq, Repr

namespace Step

abbrev Answer : Step → Type
  | post _ => Except Message Unit
  | pump => Bool
  | recv => Option Message
  | idle => Unit

instance : Request Step := ⟨Answer⟩

/-- The message that was accepted for sending, if one was. -/
def accepted? : (k : Step) → Request.Answer k → Option Message
  | post msg, .ok () => some msg
  | _, _ => none

def received? : (k : Step) → Request.Answer k → Option Message
  | recv, got => got
  | _, _ => none

end Step

/-- The messages that were accepted, oldest first; the log has the latest event first. -/
def accepted (log : List (Event Step)) : List Message :=
  log.reverse.filterMap fun e => e.request.accepted? e.answer

def received (log : List (Event Step)) : List Message :=
  log.reverse.filterMap fun e => e.request.received? e.answer

lemma accepted_cons (e : Event Step) (log : List (Event Step)) :
    accepted (e :: log) = accepted log ++ (e.request.accepted? e.answer).toList := by
  cases h : e.request.accepted? e.answer <;> simp [accepted, h]

lemma received_cons (e : Event Step) (log : List (Event Step)) :
    received (e :: log) = received log ++ (e.request.received? e.answer).toList := by
  cases h : e.request.received? e.answer <;> simp [received, h]

/-!
### The queue
-/

/-- Messages on their way: at most one in flight, and others that wait behind it. -/
@[ext]
structure Line where
  inFlight : Option Message
  waiting : List Message
  deriving DecidableEq, Repr

namespace Line

def messages (a : Line) : List Message := a.inFlight.toList ++ a.waiting

/-- What a step is answered, and what becomes of the queue, if up to `depth` messages may wait. -/
def step (depth : Nat) : (k : Step) → Line → Request.Answer k × Line
  | .post msg, a =>
    if a.waiting.length = depth then (.error msg, a)
    else (.ok (), { a with waiting := a.waiting ++ [msg] })
  | .pump, ⟨none, msg :: rest⟩ => (true, ⟨some msg, rest⟩)
  | .pump, a => (false, a)
  | .recv, a => (a.inFlight, { a with inFlight := none })
  | .idle, a => ((), a)

lemma step_pump_of_stuck {depth : Nat} {a : Line} (h : a.inFlight ≠ none ∨ a.waiting = []) :
    a.step depth .pump = (false, a) := by
  match a, h with
  | ⟨some _, _⟩, _ | ⟨none, []⟩, _ => rfl
  | ⟨none, _ :: _⟩, h => simp at h

/-- No step loses a message, doubles one, or lets one pass another. -/
lemma messages_step (depth : Nat) (k : Step) (a : Line) :
    (k.received? (a.step depth k).1).toList ++ (a.step depth k).2.messages =
      a.messages ++ (k.accepted? (a.step depth k).1).toList := by
  obtain ⟨inFlight, waiting⟩ := a
  cases k with
  | post msg =>
    simp only [step]
    split <;> simp [messages, Step.received?, Step.accepted?]
  | pump =>
    match inFlight, waiting with
    | none, [] | none, _ :: _ | some _, _ => simp [step, messages, Step.received?, Step.accepted?]
  | recv => simp [step, messages, Step.received?, Step.accepted?]
  | idle => simp [step, messages, Step.received?, Step.accepted?]

end Line

/-!
### Outboxes
-/

/-- An outbox, with what goes on around it. -/
structure Station where
  outbox : Outbox
  scene : Scene

namespace Station

def start (l : Lane) (depth : Nat) (ahead : List (List (Side × Access Register))) : Station :=
  ⟨.empty l.channel depth, .start ahead⟩

/-- One core runs a program that may change the outbox. -/
def perform {α : Type} (s : Station) (side : Side) (p : Prog (α × Outbox)) :
    Except Fault α × Station :=
  match p.run (Scene.handler side) s.scene with
  | (.ok (a, outbox), scene) => (.ok a, ⟨outbox, scene⟩)
  | (.error e, scene) => (.error e, { s with scene := scene })

/-- Makes a step with an outbox of the source of a lane. -/
def handler (l : Lane) : Handler Step Station Fault
  | .post msg, s =>
    match s.outbox.post msg with
    | .ok outbox => (.ok (.ok ()), { s with outbox := outbox })
    | .error back => (.ok (.error back), s)
  | .pump, s => s.perform l.source s.outbox.pump
  | .recv, s => s.perform l.source.peer do return (← recv l.channel, s.outbox)
  | .idle, s => s.perform l.source do return (← .request .pause, s.outbox)

/-- The queue that an outbox and its lane are. -/
def line (l : Lane) (s : Station) : Line :=
  ⟨(s.scene.controller.lane l).inFlight, s.outbox.queue⟩

/-- The outbox is one of the lane, and the lane is either ready or full. -/
structure Consistent (l : Lane) (depth : Nat) (s : Station) : Prop where
  orderly : s.scene.Orderly l
  exclusive : (s.scene.controller.lane l).full = !(s.scene.controller.lane l).ready
  channel : s.outbox.channel = l.channel
  limit : s.outbox.depth = depth
  bounded : s.outbox.queue.length ≤ depth

/-- A step with the outbox is answered as the queue answers it, and makes of it what it makes of the
queue. -/
def Follows (l : Lane) (depth : Nat) (s : Station) (k : Step) : Prop := ∃ s',
  handler l k s = (.ok ((s.line l).step depth k).1, s') ∧
    s'.line l = ((s.line l).step depth k).2 ∧ s'.Consistent l depth

variable {l : Lane} {depth : Nat} {s : Station}

lemma consistent_start {ahead : List (List (Side × Access Register))}
    (h : ∀ batch ∈ ahead, ∀ a ∈ batch, l.Aside a.1 a.2) :
    (start l depth ahead).Consistent l depth := by
  obtain ⟨hready, hfull⟩ := Controller.lane_fresh l
  refine ⟨⟨h, rfl, nofun⟩, ?_, rfl, rfl, Nat.zero_le _⟩
  simp [start, Scene.start, hready, hfull]

/-- A program that is verified for the lane runs to its end. -/
lemma perform_eq {α : Type} {side : Side} {p : Prog (α × Outbox)}
    {post : α × Outbox → LaneState → Prop} (hs : s.scene.Orderly l)
    (hp : p.Keeps (l.contract side) post (s.scene.controller.lane l)) :
    ∃ a s', s.perform side p = (.ok a, s') ∧ s'.scene.Orderly l ∧
      post (a, s'.outbox) (s'.scene.controller.lane l) := by
  obtain ⟨⟨a, outbox⟩, scene, _, hrun, hpost, hscene, rfl⟩ :=
    hp.run_served (Scene.servedBy l side) ⟨hs, rfl⟩
  refine ⟨a, ⟨outbox, scene⟩, ?_, hscene, hpost⟩
  rw [perform, hrun]

/-- The oldest message moves to the lane if there is one and the lane is ready. -/
lemma keeps_pump {o : Outbox} (ho : o.channel = l.channel) (s : LaneState) :
    o.pump.Keeps (l.contract l.source)
      (fun r s' => match o.queue with
        | [] => r = (false, o) ∧ s' = s
        | msg :: rest =>
          if s.ready then r = (true, { o with queue := rest }) ∧ s' = ⟨false, true, msg⟩
          else r = (false, o) ∧ s' = s) s := by
  rw [Outbox.pump]
  cases hqueue : o.queue with
  | nil => exact ⟨rfl, rfl⟩
  | cons msg rest =>
    simp only [Program.bind_eq, Program.keeps_bind, ho]
    apply (Lane.keeps_trySend msg s).mono
    intro r s' hr
    cases hready : s.ready with
    | false =>
      rw [hready] at hr
      obtain ⟨rfl, rfl⟩ := hr
      exact ⟨rfl, rfl⟩
    | true =>
      rw [hready] at hr
      obtain ⟨rfl, rfl⟩ := hr
      exact ⟨rfl, rfl⟩

namespace Consistent

lemma update (hs : s.Consistent l depth) {s' : Station} {queue : List Message}
    (horderly : s'.scene.Orderly l)
    (hexclusive : (s'.scene.controller.lane l).full = !(s'.scene.controller.lane l).ready)
    (houtbox : s'.outbox = { s.outbox with queue := queue }) (hqueue : queue.length ≤ depth) :
    s'.Consistent l depth where
  orderly := horderly
  exclusive := hexclusive
  channel := by rw [houtbox, hs.channel]
  limit := by rw [houtbox, hs.limit]
  bounded := by rwa [houtbox]

lemma unchanged (hs : s.Consistent l depth) {s' : Station} (horderly : s'.scene.Orderly l)
    (houtbox : s'.outbox = s.outbox)
    (hlane : s'.scene.controller.lane l = s.scene.controller.lane l) :
    s'.line l = s.line l ∧ s'.Consistent l depth := by
  constructor
  · simp only [line, hlane, houtbox]
  · exact hs.update horderly (by rw [hlane, hs.exclusive]) houtbox hs.bounded

lemma inFlight_eq (hs : s.Consistent l depth) : (s.line l).inFlight =
    if (s.scene.controller.lane l).ready then none else some (s.scene.controller.lane l).slot := by
  simp only [line, LaneState.inFlight, hs.exclusive]
  cases (s.scene.controller.lane l).ready <;> rfl

lemma follows_post (hs : s.Consistent l depth) (msg : Message) :
    s.Follows l depth (.post msg) := by
  have hlimit := hs.limit
  have hbounded := hs.bounded
  by_cases hfull : s.outbox.queue.length = depth
  · have hpost : s.outbox.post msg = .error msg := if_neg (by omega)
    have hstep : (s.line l).step depth (.post msg) = (.error msg, s.line l) := if_pos hfull
    rw [Follows, hstep, Station.handler, hpost]
    exact ⟨s, rfl, rfl, hs⟩
  · have hpost : s.outbox.post msg = .ok { s.outbox with queue := s.outbox.queue ++ [msg] } :=
      if_pos (by omega)
    have hstep : (s.line l).step depth (.post msg) =
        (.ok (), { s.line l with waiting := s.outbox.queue ++ [msg] }) := if_neg hfull
    rw [Follows, hstep, Station.handler, hpost]
    refine ⟨_, rfl, rfl, hs.update hs.orderly hs.exclusive rfl ?_⟩
    simp only [List.length_append, List.length_singleton]
    omega

lemma follows_pump (hs : s.Consistent l depth) : s.Follows l depth .pump := by
  obtain ⟨went, s', hrun, horderly, hpost⟩ := perform_eq hs.orderly (keeps_pump hs.channel _)
  have hflight := hs.inFlight_eq
  refine ⟨s', ?_⟩
  rw [Station.handler, hrun]
  cases hqueue : s.outbox.queue with
  | nil =>
    rw [hqueue] at hpost
    obtain ⟨hr, hlane⟩ := hpost
    obtain ⟨rfl, houtbox⟩ := Prod.mk.inj hr
    rw [Line.step_pump_of_stuck (.inr hqueue)]
    exact ⟨rfl, hs.unchanged horderly houtbox hlane⟩
  | cons msg rest =>
    rw [hqueue] at hpost
    cases hready : (s.scene.controller.lane l).ready with
    | false =>
      rw [hready] at hflight
      simp only [hready] at hpost
      obtain ⟨hr, hlane⟩ := hpost
      obtain ⟨rfl, houtbox⟩ := Prod.mk.inj hr
      rw [Line.step_pump_of_stuck (.inl (by simp [hflight]))]
      exact ⟨rfl, hs.unchanged horderly houtbox hlane⟩
    | true =>
      rw [hready] at hflight
      simp only [hready, if_true] at hpost
      obtain ⟨hr, hlane⟩ := hpost
      obtain ⟨rfl, houtbox⟩ := Prod.mk.inj hr
      have hline : s.line l = ⟨none, msg :: rest⟩ := Line.ext hflight hqueue
      have hbounded := hs.bounded
      rw [hqueue, List.length_cons] at hbounded
      rw [hline, Line.step]
      refine ⟨rfl, ?_, hs.update horderly ?_ houtbox (by omega)⟩
      · simp [line, hlane, houtbox, LaneState.inFlight]
      · simp [hlane]

lemma follows_recv (hs : s.Consistent l depth) : s.Follows l depth .recv := by
  have hp : (do return (← recv l.channel, s.outbox) : Prog (Option Message × Outbox)).Keeps
      (l.contract l.source.peer)
      (fun r v => r = ((s.line l).inFlight, s.outbox) ∧ v.inFlight = none ∧ v.full = !v.ready)
      (s.scene.controller.lane l) := by
    simp only [Program.bind_eq, Program.keeps_bind]
    apply (Lane.keeps_recv _).mono
    intro got v hgot
    cases hfull : (s.scene.controller.lane l).full with
    | false =>
      rw [hfull] at hgot
      obtain ⟨rfl, rfl⟩ := hgot
      refine ⟨?_, ?_, hs.exclusive⟩
      · simp [line, LaneState.inFlight, hfull]
      · simp [LaneState.inFlight, hfull]
    | true =>
      rw [hfull] at hgot
      obtain ⟨rfl, rfl⟩ := hgot
      refine ⟨?_, rfl, rfl⟩
      simp [line, LaneState.inFlight, hfull]
  obtain ⟨got, s', hrun, horderly, hr, hflight, hexclusive⟩ := perform_eq hs.orderly hp
  obtain ⟨rfl, houtbox⟩ := Prod.mk.inj hr
  refine ⟨s', hrun, Line.ext hflight ?_, hs.update horderly hexclusive houtbox hs.bounded⟩
  exact congrArg Outbox.queue houtbox

lemma follows_idle (hs : s.Consistent l depth) : s.Follows l depth .idle := by
  have hp : (do return (← .request (Access.pause : Access Register), s.outbox) :
      Prog (Unit × Outbox)).Keeps (l.contract l.source)
      (fun r v => r.2 = s.outbox ∧ v = s.scene.controller.lane l)
      (s.scene.controller.lane l) := by
    simp only [Program.bind_eq, Program.keeps_bind]
    apply (Lane.keeps_aside (q := .pause) ⟨rfl, rfl⟩).mono
    rintro _ _ ⟨-, rfl⟩
    exact ⟨rfl, rfl⟩
  obtain ⟨_, s', hrun, horderly, houtbox, hlane⟩ := perform_eq hs.orderly hp
  exact ⟨s', hrun, hs.unchanged horderly houtbox hlane⟩

lemma follows (hs : s.Consistent l depth) (k : Step) : s.Follows l depth k := by
  cases k with
  | post msg => exact hs.follows_post msg
  | pump => exact hs.follows_pump
  | recv => exact hs.follows_recv
  | idle => exact hs.follows_idle

end Consistent

end Station

/-!
### Any number of steps
-/

/-- What was received, together with what is on its way, is what was accepted. -/
structure Lossless (l : Lane) (depth : Nat) (p : Station × List (Event Step)) : Prop where
  consistent : p.1.Consistent l depth
  order : received p.2 ++ (p.1.line l).messages = accepted p.2

lemma Lossless.step {l : Lane} {depth : Nat} (k : Step) (p : Station × List (Event Step))
    (hp : Lossless l depth p) :
    ∃ r p', (Station.handler l).recording k p = (.ok r, p') ∧ Lossless l depth p' := by
  obtain ⟨s, log⟩ := p
  obtain ⟨s', hstep, hline, hs'⟩ := hp.consistent.follows k
  refine ⟨((s.line l).step depth k).1, (s', ⟨k, ((s.line l).step depth k).1⟩ :: log), ?_, hs', ?_⟩
  · rw [Handler.recording, hstep]
  · rw [accepted_cons, received_cons, ← hp.order, hline, List.append_assoc, List.append_assoc,
      Line.messages_step]

/-- Whatever is done with an outbox, in any order, and whatever the others do in between as long as
they leave its lane alone: every step is answered, as the queue answers it, and what was received,
what is in flight and what waits are together what was accepted. A message that is refused changes
nothing. No message on the lane was replaced. -/
theorem outbox_lossless (l : Lane) (depth : Nat) (ahead : List (List (Side × Access Register)))
    (h : ∀ batch ∈ ahead, ∀ a ∈ batch, l.Aside a.1 a.2) (steps : Program Step Unit) :
    ∃ s log, steps.run (Station.handler l).recording (.start l depth ahead, []) = (.ok (), s, log) ∧
      received log ++ ((s.line l).inFlight.toList ++ s.outbox.queue) = accepted log ∧
      (∀ k, ∃ s', Station.handler l k s = (.ok ((s.line l).step depth k).1, s') ∧
        s'.line l = ((s.line l).step depth k).2) ∧
      (∀ msg, s.outbox.queue.length = depth →
        Station.handler l (.post msg) s = (.ok (.error msg), s)) ∧
      s.scene.controller.overwrites = (s.scene.replaced.map fun p => popCount p.2).sum ∧
      ∀ p ∈ s.scene.replaced, p.1 = l.source → l.channel.marked p.2 = false := by
  have hstart : Lossless l depth (.start l depth ahead, []) := by
    refine ⟨Station.consistent_start h, ?_⟩
    simp [received, accepted, Line.messages, Station.line, Station.start, Scene.start, Outbox.empty,
      LaneState.inFlight, Controller.lane_fresh]
  obtain ⟨_, ⟨s, log⟩, hrun, hs⟩ := steps.run_of_step Lossless.step hstart
  have hconsistent : s.Consistent l depth := hs.consistent
  refine ⟨s, log, hrun, hs.order, ?_, ?_, hconsistent.orderly.counted, hconsistent.orderly.spared⟩
  · intro k
    obtain ⟨s', hstep, hline, -⟩ := hconsistent.follows k
    exact ⟨s', hstep, hline⟩
  · intro msg hfull
    have hlimit := hconsistent.limit
    have hpost : s.outbox.post msg = .error msg := if_neg (by omega)
    rw [Station.handler, hpost]

def busyLane : Lane := ⟨⟨0, channelCount_pos⟩, .app⟩

/-- Messages that go the other way on the same channel, and are acknowledged. -/
def busyTraffic : List (List (Side × Access Register)) :=
  .replicate 20 [(.rt, .write .txctl busyLane.channel.mask), (.app, .write .rxctl 3)]

/-- There is room for one message, so the third one is refused. -/
def busySteps : Program Step Unit :=
  [.post #v[1, 2, 3, 4], .pump, .post #v[5, 6, 7, 8], .post (.replicate 4 0), .pump, .recv,
    .pump].foldr (fun k p => (Program.request k).bind fun _ => p) (.done ())

theorem outbox_lossless_busy :
    ∃ s log, busySteps.run (Station.handler busyLane).recording
        (.start busyLane 1 busyTraffic, []) = (.ok (), s, log) ∧
      received log ++ ((s.line busyLane).inFlight.toList ++ s.outbox.queue) =
        [#v[1, 2, 3, 4], #v[5, 6, 7, 8]] := by
  obtain ⟨s, log, hrun, horder, -⟩ :=
    outbox_lossless busyLane 1 busyTraffic (by decide) busySteps
  have haccepted : accepted (busySteps.run (Station.handler busyLane).recording
      (.start busyLane 1 busyTraffic, [])).2.2 = [#v[1, 2, 3, 4], #v[5, 6, 7, 8]] := by
    decide +kernel
  rw [hrun] at haccepted
  exact ⟨s, log, hrun, horder.trans haccepted⟩

end Intercore.Mailbox
