import Intercore.Proofs.Log
import Intercore.Proofs.Reset.Call

/-!
# The accesses of a call

What a call on a reset line may be seen to do to the system controller, whatever the registers
answer.

Nothing is known of what a write did but by reading. So a reset register is written only behind a
look at the protection that found it open, and a call that found it closed writes the sequence,
looks once more and closes it as its last access.
-/

namespace Intercore.Reset

/-- The accesses of a program, oldest first. -/
abbrev Log := List (Event (Access Register))

/-- A register was read as a word. -/
def saw (r : Register) (v : UInt32) : Event (Access Register) := ⟨.read r, v⟩

/-- A word was written to a register. -/
def put (r : Register) (v : UInt32) : Event (Access Register) := ⟨.write r v, ()⟩

section Events

variable {r r' : Register} {v v' : UInt32}

@[simp] lemma saw_inj : saw r v = saw r' v' ↔ r = r' ∧ v = v' := by
  constructor
  · rintro ⟨⟩
    exact ⟨rfl, rfl⟩
  · rintro ⟨rfl, rfl⟩
    rfl

@[simp] lemma put_inj : put r v = put r' v' ↔ r = r' ∧ v = v' := by
  constructor
  · rintro ⟨⟩
    exact ⟨rfl, rfl⟩
  · rintro ⟨rfl, rfl⟩
    rfl

@[simp] lemma saw_ne_put : saw r v ≠ put r' v' := nofun

@[simp] lemma put_ne_saw : put r v ≠ saw r' v' := nofun

end Events

/-!
### Windows
-/

variable {α : Type} {log : Log}

lemma logs_read {r : Register} {v : UInt32} : (read r).Logs log v ↔ log = [saw r v] :=
  Program.logs_request

lemma logs_write {r : Register} {v : UInt32} {u : Unit} :
    (write r v).Logs log u ↔ log = [put r v] :=
  Program.logs_request

lemma logs_isOpen {b : Bool} :
    isOpen.Logs log b ↔ ∃ w, log = [saw .reglctl w] ∧ b = decide (w &&& 1 ≠ 0) := by
  simp [isOpen, Program.logs_bind, logs_read]

lemma logs_writes {r : Register} {values : List UInt32} {u : Unit} :
    (forM values (write r)).Logs log u ↔ log = values.map (put r) := by
  induction values generalizing log with
  | nil => simp
  | cons v rest ih => simp [Program.logs_bind, logs_write, ih]

lemma writeAll_eq (words : List UInt32) : writeAll words = forM words (write .reglctl) := by
  induction words with
  | nil => rfl
  | cons w rest ih => simp [writeAll, ih]

/-- What is seen of a window and what it answers. -/
inductive WindowLog (body : Prog α) : Log → Except ResetError α → Prop
  /-- The protection was found open, and nothing is written to it. -/
  | found {w : UInt32} {own : Log} {a : α} (hw : w &&& 1 ≠ 0) (h : body.Logs own a) :
    WindowLog body (saw .reglctl w :: own) (.ok a)
  /-- It was found closed, and open after the sequence. It is closed at the end. -/
  | opened {w w' : UInt32} {own : Log} {a : α} (hw : w &&& 1 = 0) (hw' : w' &&& 1 ≠ 0)
    (h : body.Logs own a) :
    WindowLog body ((saw .reglctl w :: unlockSequence.map (put .reglctl) ++ [saw .reglctl w']) ++
      own ++ [put .reglctl 0]) (.ok a)
  /-- It was closed before and behind the sequence. -/
  | stuck {w w' : UInt32} (hw : w &&& 1 = 0) (hw' : w' &&& 1 = 0) :
    WindowLog body (saw .reglctl w :: unlockSequence.map (put .reglctl) ++ [saw .reglctl w'])
      (.error .lockStuck)

lemma windowLog_of_logs {body : Prog α} {r : Except ResetError α} (h : (withOpen body).Logs log r) :
    WindowLog body log r := by
  rw [withOpen, Program.bind_eq, Program.logs_bind] at h
  obtain ⟨_, rest, _, rfl, hlook, h⟩ := h
  obtain ⟨w, rfl, rfl⟩ := logs_isOpen.mp hlook
  -- The cases are what the first look found, and what the second one did.
  by_cases hw : w &&& 1 = 0
  · simp only [hw, ne_eq, not_true_eq_false, decide_false, Bool.false_eq_true, if_false,
      Program.bind_eq, Program.logs_bind, writeAll_eq, logs_writes, logs_isOpen] at h
    obtain ⟨_, rest, _, rfl, rfl, _, rest, _, rfl, ⟨w', rfl, rfl⟩, h⟩ := h
    by_cases hw' : w' &&& 1 = 0
    · simp only [hw', not_true_eq_false, decide_false, Bool.false_eq_true, if_false,
        Program.pure_eq, Program.logs_done] at h
      obtain ⟨rfl, rfl⟩ := h
      simpa using WindowLog.stuck hw hw'
    · simp only [hw', not_false_eq_true, decide_true, if_true, Program.pure_eq,
        Program.logs_bind, Program.logs_done, logs_write] at h
      obtain ⟨own, _, a, rfl, hbody, _, _, _, rfl, rfl, rfl, rfl⟩ := h
      simpa using WindowLog.opened hw hw' hbody
  · simp only [hw, ne_eq, not_false_eq_true, decide_true, if_true, Program.bind_eq, Program.pure_eq,
      Program.logs_bind, Program.logs_done] at h
    obtain ⟨own, _, a, rfl, hbody, rfl, rfl⟩ := h
    simpa using WindowLog.found hw hbody

/-!
### Calls
-/

@[simp] lemma Line.register_ne_reglctl (l : Line) : l.register ≠ .reglctl := nofun

namespace Call

/-- What a call does within its window. -/
def body (call : Call) (l : Line) : Prog Unit := do
  let v ← read l.register
  forM (call.values l.mask v) (write l.register)

lemma program_eq (call : Call) (l : Line) : call.program l = withOpen (call.body l) := by
  cases call <;> rfl

lemma logs_body {call : Call} {l : Line} {u : Unit} : (call.body l).Logs log u ↔
    ∃ v, log = saw l.register v :: (call.values l.mask v).map (put l.register) := by
  simp [body, Program.logs_bind, logs_read, logs_writes]

/-- No value of a call differs from what was read in another place than that of the line. -/
lemma hasBit_of_mem_values {call : Call} {l : Line} {v value : UInt32}
    (h : value ∈ call.values l.mask v) {j : Fin 32} (hj : j ≠ l.place) :
    hasBit j value = hasBit j v := by
  cases call <;> simp only [values, List.mem_cons, List.not_mem_nil, or_false] at h
  case enter | leave => simp [h, hj]
  case pulse => rcases h with rfl | rfl <;> simp [hj]

end Call

/-- The number of a reset register that is written, with its value. -/
def resetWrite : Event (Access Register) → Option (UInt8 × UInt32)
  | ⟨.write (.iprst i) v, _⟩ => some (i, v)
  | _ => none

@[simp] lemma resetWrite_saw (r : Register) (v : UInt32) : resetWrite (saw r v) = none := rfl

@[simp] lemma resetWrite_put (l : Line) (v : UInt32) :
    resetWrite (put l.register v) = some (l.resetBit.register, v) := rfl

section Lists

/-! What stands at an entry of a list that is none of the first, or none of the last. -/

variable {β : Type} {front own back before since after : List β} {e : β}

lemma split_behind (he : e ∉ front) (h : front ++ own = before ++ e :: after) :
    ∃ since, before = front ++ since ∧ own = since ++ e :: after := by
  induction front generalizing before with
  | nil => exact ⟨before, rfl, h⟩
  | cons d front ih =>
    simp only [List.mem_cons, not_or] at he
    cases before with
    | nil => exact absurd (List.cons_eq_cons.mp h).1.symm he.1
    | cons _ before =>
      obtain ⟨rfl, hrest⟩ := List.cons_eq_cons.mp h
      obtain ⟨since, rfl, hown⟩ := ih he.2 hrest
      exact ⟨since, rfl, hown⟩

lemma split_before (he : e ∉ back) (h : own ++ back = since ++ e :: after) :
    ∃ rest, own = since ++ e :: rest := by
  have hreverse : back.reverse ++ own.reverse = after.reverse ++ e :: since.reverse := by
    simpa using congrArg List.reverse h
  obtain ⟨rest, -, hown⟩ := split_behind (by simpa using he) hreverse
  exact ⟨rest.reverse, by simpa using congrArg List.reverse hown⟩

end Lists

/-- What becomes of the protection. If it was found open, it is left alone. If it was found closed,
it gets the sequence and is looked at again; then the call gives up, or closes it at its very
end. -/
def Course (log : Log) (r : Except ResetError Unit) : Prop :=
  ∃ w rest, log = saw .reglctl w :: rest ∧
    if w &&& 1 ≠ 0 then r = .ok () ∧ ∀ word, put .reglctl word ∉ rest
    else ∃ w' behind, rest = put .reglctl 0x59 :: put .reglctl 0x16 :: put .reglctl 0x88 ::
        saw .reglctl w' :: behind ∧
      (w' &&& 1 = 0 ∧ behind = [] ∧ r = .error .lockStuck ∨
        w' &&& 1 ≠ 0 ∧ r = .ok () ∧ ∃ own, behind = own ++ [put .reglctl 0] ∧
          ∀ word, put .reglctl word ∉ own)

/-- What a call must and must not do, whatever it sees. -/
structure Disciplined (call : Call) (l : Line) (log : Log) (r : Except ResetError Unit) : Prop where
  /-- A reset register is written only behind a look at the protection that found it open, with
  nothing written to the protection since. -/
  guarded : ∀ before i v after, log = before ++ put (.iprst i) v :: after →
    ∃ earlier w since, before = earlier ++ saw .reglctl w :: since ∧ w &&& 1 ≠ 0 ∧
      ∀ word, put .reglctl word ∉ since
  /-- Only the register of the line is written, with what was read from it but for the line. -/
  own : ∀ before i v after, log = before ++ put (.iprst i) v :: after →
    i = l.resetBit.register ∧ ∃ w, saw l.register w ∈ before ∧
      (∀ w', saw l.register w' ∈ log → w' = w) ∧ ∀ j ≠ l.place, hasBit j v = hasBit j w
  course : Course log r
  /-- A call that succeeds has written all its values. -/
  complete : r = .ok () → ∃ w, saw l.register w ∈ log ∧
    log.filterMap resetWrite = (call.values l.mask w).map (l.resetBit.register, ·)

/-- An access to the protection. -/
def OnProtection (e : Event (Access Register)) : Prop :=
  (∃ w, e = saw .reglctl w) ∨ ∃ word, e = put .reglctl word

section OnProtection

variable {i : UInt8} {v word : UInt32}

lemma saw_not_onProtection : ¬OnProtection (saw (.iprst i) v) := by
  simp [OnProtection]

lemma put_not_onProtection : ¬OnProtection (put (.iprst i) v) := by
  simp [OnProtection]

lemma resetWrite_of_onProtection {e : Event (Access Register)} (h : OnProtection e) :
    resetWrite e = none := by
  obtain ⟨_, rfl⟩ | ⟨_, rfl⟩ := h <;> rfl

end OnProtection

/-- The log of a call that found the protection open, at once or behind the sequence: accesses to
the protection, the look that found it open as `w`, the register of the line as `v`, the writes to
it, and accesses to the protection again. -/
structure Writing (call : Call) (l : Line) (log front : Log) (w v : UInt32) (back : Log) :
    Prop where
  eq : log = front ++ saw .reglctl w :: saw l.register v ::
    ((call.values l.mask v).map (put l.register) ++ back)
  hopen : w &&& 1 ≠ 0
  front : ∀ e ∈ front, OnProtection e
  back : ∀ e ∈ back, OnProtection e

namespace Writing

variable {call : Call} {l : Line} {front back : Log} {w v : UInt32}

lemma split (h : Writing call l log front w v back) {before after : Log} {i : UInt8}
    {value : UInt32} (hlog : log = before ++ put (.iprst i) value :: after) :
    ∃ since rest, before = front ++ saw .reglctl w :: saw l.register v :: since ∧
      (call.values l.mask v).map (put l.register) = since ++ put (.iprst i) value :: rest := by
  have hfront : put (.iprst i) value ∉ front ++ [saw .reglctl w, saw l.register v] := by
    simpa using fun hmem => put_not_onProtection (h.front _ hmem)
  have hback : put (.iprst i) value ∉ back := fun hmem => put_not_onProtection (h.back _ hmem)
  -- So it stands behind both reads, and not behind the values.
  obtain ⟨since, rfl, hbehind⟩ := split_behind hfront (by simpa [h.eq] using hlog)
  obtain ⟨rest, hvalues⟩ := split_before hback hbehind
  exact ⟨since, rest, by simp, hvalues⟩

lemma guarded (h : Writing call l log front w v back) {before after : Log} {i : UInt8}
    {value : UInt32} (hlog : log = before ++ put (.iprst i) value :: after) :
    ∃ earlier w since, before = earlier ++ saw .reglctl w :: since ∧ w &&& 1 ≠ 0 ∧
      ∀ word, put .reglctl word ∉ since := by
  obtain ⟨since, rest, rfl, hvalues⟩ := h.split hlog
  refine ⟨front, w, saw l.register v :: since, rfl, h.hopen, ?_⟩
  intro word hword
  simp only [List.mem_cons, put_ne_saw, false_or] at hword
  have hmem : put .reglctl word ∈ (call.values l.mask v).map (put l.register) :=
    hvalues ▸ List.mem_append_left _ hword
  simp at hmem

lemma eq_of_saw_mem (h : Writing call l log front w v back) {w' : UInt32}
    (hmem : saw l.register w' ∈ log) : w' = v := by
  have hfront : saw l.register w' ∉ front := fun hmem => saw_not_onProtection (h.front _ hmem)
  have hback : saw l.register w' ∉ back := fun hmem => saw_not_onProtection (h.back _ hmem)
  simpa [h.eq, hfront, hback] using hmem

lemma own (h : Writing call l log front w v back) {before after : Log} {i : UInt8}
    {value : UInt32} (hlog : log = before ++ put (.iprst i) value :: after) :
    i = l.resetBit.register ∧ ∃ w, saw l.register w ∈ before ∧
      (∀ w', saw l.register w' ∈ log → w' = w) ∧ ∀ j ≠ l.place, hasBit j value = hasBit j w := by
  obtain ⟨since, rest, rfl, hvalues⟩ := h.split hlog
  have hmem : put (.iprst i) value ∈ (call.values l.mask v).map (put l.register) := by
    simp [hvalues]
  obtain ⟨_, hvalue, heq⟩ := List.mem_map.mp hmem
  obtain ⟨hregister, rfl⟩ := put_inj.mp heq
  refine ⟨(Register.iprst.inj hregister).symm, v, by simp, fun _ => h.eq_of_saw_mem, ?_⟩
  intro j hj
  exact Call.hasBit_of_mem_values hvalue hj

lemma complete (h : Writing call l log front w v back) : ∃ w, saw l.register w ∈ log ∧
    log.filterMap resetWrite = (call.values l.mask w).map (l.resetBit.register, ·) := by
  have hfront : front.filterMap resetWrite = [] :=
    List.filterMap_eq_nil_iff.mpr fun e he => resetWrite_of_onProtection (h.front e he)
  have hback : back.filterMap resetWrite = [] :=
    List.filterMap_eq_nil_iff.mpr fun e he => resetWrite_of_onProtection (h.back e he)
  refine ⟨v, by simp [h.eq], ?_⟩
  simp [h.eq, List.filterMap_cons, hfront, hback, Function.comp_def]

lemma disciplined {r : Except ResetError Unit} (h : Writing call l log front w v back)
    (hcourse : Course log r) : Disciplined call l log r where
  guarded _ _ _ _ := h.guarded
  own _ _ _ _ := h.own
  complete _ := h.complete
  course := hcourse

end Writing

lemma disciplined_of_logs {call : Call} {l : Line} {r : Except ResetError Unit}
    (h : (call.program l).Logs log r) : Disciplined call l log r := by
  rw [call.program_eq] at h
  cases windowLog_of_logs h with
  | @found w own _ hw hbody =>
    obtain ⟨v, rfl⟩ := Call.logs_body.mp hbody
    have hwriting : Writing call l (saw .reglctl w :: saw l.register v ::
        (call.values l.mask v).map (put l.register)) [] w v [] := ⟨by simp, hw, by simp, by simp⟩
    exact hwriting.disciplined ⟨w, _, rfl, by simp [hw]⟩
  | @opened w w' own _ hw hw' hbody =>
    obtain ⟨v, rfl⟩ := Call.logs_body.mp hbody
    have hwriting : Writing call l _ (saw .reglctl w :: unlockSequence.map (put .reglctl)) w' v
        [put .reglctl 0] := ⟨rfl, hw', by simp [OnProtection], by simp [OnProtection]⟩
    refine hwriting.disciplined ⟨w, _, rfl, ?_⟩
    rw [if_neg (by simp [hw])]
    refine ⟨w', _, rfl, .inr ⟨hw', rfl, ?_⟩⟩
    exact ⟨saw l.register v :: (call.values l.mask v).map (put l.register), rfl, by simp⟩
  | @stuck w w' hw hw' =>
    have hfree : ∀ before i v after, saw .reglctl w :: unlockSequence.map (put .reglctl) ++
        [saw .reglctl w'] ≠ before ++ put (.iprst i) v :: after := by
      intro before i v after heq
      have hmem : put (.iprst i) v ∈ before ++ put (.iprst i) v :: after := by simp
      simp [← heq] at hmem
    refine ⟨fun _ _ _ _ heq => absurd heq (hfree _ _ _ _),
      fun _ _ _ _ heq => absurd heq (hfree _ _ _ _), ?_, nofun⟩
    refine ⟨w, _, rfl, ?_⟩
    rw [if_neg (by simp [hw])]
    exact ⟨w', [], rfl, .inl ⟨hw', rfl, rfl⟩⟩

/-- Whatever the registers answer, a call ends, and its accesses keep the discipline. -/
theorem call_disciplined {σ ε : Type}
    (answer : (q : Access Register) → σ → Request.Answer q × σ) (s : σ) (call : Call) (l : Line) :
    ∃ r s' log, (call.program l).run
        (Handler.answering answer : Handler (Access Register) σ ε).recording (s, []) =
          (.ok r, s', log.reverse) ∧
      Disciplined call l log r := by
  obtain ⟨r, s', log, hlog, hrun⟩ := (call.program l).run_recording answer s []
  rw [List.append_nil] at hrun
  exact ⟨r, s', log, hrun, disciplined_of_logs hlog⟩

end Intercore.Reset
