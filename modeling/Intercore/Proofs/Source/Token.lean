import Intercore.Text.Quoted
import Intercore.Toml.Text
import Mathlib.Tactic.Lemma

/-!
# The words of source text

Names, numbers, quoted text and marks in source text, and what stands for them.

The words are read by an automaton that takes one character at a time. A number is written in base
ten, or behind `0x` in base sixteen. Quoted text may hold every character but a carriage return; a
backslash stands for something else together with what follows it.
-/

namespace Intercore.Source

/-- A word of source text. -/
inductive Token
  | name (s : String)
  | number (n : Nat)
  | text (s : String)
  | mark (c : Char)
  deriving DecidableEq, Repr

def isBlank (c : Char) : Bool := c = ' ' || c = '\n' || c = '\t' || c = '\r'

def isNameStart (c : Char) : Bool := c.isAlpha || c = '_'

def isNamePart (c : Char) : Bool := c.isAlphanum || c = '_'

def marks : List Char := [':', ';', '=', ',', '&', '\x7b', '\x7d']

/-- The value of a digit in a base up to sixteen. -/
def digit? (base : Nat) (c : Char) : Option Nat := (Toml.hexDigit? c).filter (· < base)

/-- Where the reader of words stands. Characters that were read are held newest first. -/
inductive State
  /-- Between two words. -/
  | blank
  | name (cs : List Char)
  /-- After a zero, which may start a number in base sixteen. -/
  | zero
  /-- After the start of a number in base sixteen, with no digit yet. -/
  | hex
  | number (base n : Nat)
  /-- Within quotes. -/
  | text (cs : List Char)
  /-- After a backslash. -/
  | escape (cs : List Char)
  /-- Before the first digit of a byte. -/
  | byte (cs : List Char)
  /-- Before the second one. -/
  | lowByte (cs : List Char) (high : Nat)
  /-- Before the brace that opens a code point. -/
  | brace (cs : List Char)
  /-- Within a code point, after `count` digits. -/
  | code (cs : List Char) (count value : Nat)
  /-- After a backslash at the end of a line; blanks are skipped. -/
  | fold (cs : List Char)
  deriving DecidableEq, Repr

namespace State

/-- The last word, if the text may end here. -/
def finish : State → Option (List Token)
  | blank => some []
  | name cs => some [.name (String.ofList cs.reverse)]
  | zero => some [.number 0]
  | number _ n => some [.number n]
  | _ => none

/-- A character that starts a word, or is one. -/
def start (c : Char) : Option (List Token × State) :=
  if isNameStart c then some ([], name [c])
  else if isBlank c then some ([], blank)
  else if c = '0' then some ([], zero)
  else if c = '"' then some ([], text [])
  else if c ∈ marks then some ([.mark c], blank)
  else do return ([], number 10 (← digit? 10 c))

/-- A character behind a word that it ends. -/
def close (s : State) (c : Char) : Option (List Token × State) := do
  let ts ← s.finish
  let (us, s) ← start c
  return (ts ++ us, s)

/-- A character within quotes. -/
def quoted (cs : List Char) (c : Char) : Option (List Token × State) :=
  if c = '"' then some ([.text (String.ofList cs.reverse)], blank)
  else if c = '\\' then some ([], escape cs)
  else if c = '\r' then none
  else some ([], text (c :: cs))

/-- The character after a backslash. -/
def escaped (cs : List Char) (c : Char) : Option State :=
  match c with
  | 'n' => some (text ('\n' :: cs))
  | 'r' => some (text ('\r' :: cs))
  | 't' => some (text ('\t' :: cs))
  | '0' => some (text ('\x00' :: cs))
  | '\\' => some (text ('\\' :: cs))
  | '"' => some (text ('"' :: cs))
  | '\x27' => some (text ('\x27' :: cs))
  | 'x' => some (byte cs)
  | 'u' => some (brace cs)
  | '\n' => some (fold cs)
  | _ => none

/-- A character within a code point, which has one to six digits. -/
def coded (cs : List Char) (count value : Nat) (c : Char) : Option State :=
  if c = '\x7d' then
    if count = 0 then none else (Toml.scalar? value).map fun c => text (c :: cs)
  else if c = '_' then if count = 0 then none else some (code cs count value)
  else if count < 6 then (digit? 16 c).map fun d => code cs (count + 1) (16 * value + d)
  else none

/-- One transition: the words that are complete now, and the new state. -/
def step : State → Char → Option (List Token × State)
  | blank, c => start c
  | name cs, c => if isNamePart c then some ([], name (c :: cs)) else (name cs).close c
  | zero, c =>
    if !isNamePart c then zero.close c
    else if c = 'x' then some ([], hex)
    else if c = '_' then some ([], number 10 0)
    else (digit? 10 c).map fun d => ([], number 10 d)
  | hex, c => if c = '_' then some ([], hex) else (digit? 16 c).map fun d => ([], number 16 d)
  | number base n, c =>
    if !isNamePart c then (number base n).close c
    else if c = '_' then some ([], number base n)
    else (digit? base c).map fun d => ([], number base (base * n + d))
  | text cs, c => quoted cs c
  | escape cs, c => (escaped cs c).map ([], ·)
  | byte cs, c => (digit? 8 c).map fun d => ([], lowByte cs d)
  | lowByte cs high, c =>
    (digit? 16 c).map fun d => ([], text (Char.ofNat (16 * high + d) :: cs))
  | brace cs, c => if c = '\x7b' then some ([], code cs 0 0) else none
  | code cs count value, c => (coded cs count value c).map ([], ·)
  | fold cs, c => if isBlank c then some ([], fold cs) else quoted cs c

end State

/-- The words that are complete at the end of some text, and the state there. -/
def scan : State → List Char → Option (List Token × State)
  | s, [] => some ([], s)
  | s, c :: rest => do
    let (ts, s) ← s.step c
    let (us, s) ← scan s rest
    return (ts ++ us, s)

/-- The words of a text. -/
def tokens (text : String) : Option (List Token) := do
  let (ts, s) ← scan .blank text.toList
  return ts ++ (← s.finish)

/-- The whole text reads as these words. -/
def Lexes (text : String) (ts : List Token) : Prop := tokens text = some ts

/-- The text reads as these words, whatever follows. -/
def Closes (text : String) (ts : List Token) : Prop := scan .blank text.toList = some (ts, .blank)

/-- The text reads as these words, and ends the word before it. -/
def Separates (text : String) (ts : List Token) : Prop :=
  Closes text ts ∧ ∃ c rest, text.toList = c :: rest ∧ isNamePart c = false

/-!
### Putting texts together
-/

section Append

variable {s s' s'' : State} {a b : List Char} {ts us : List Token} {text more : String}

lemma scan_append (ha : scan s a = some (ts, s')) (hb : scan s' b = some (us, s'')) :
    scan s (a ++ b) = some (ts ++ us, s'') := by
  induction a generalizing s ts with
  | nil =>
    obtain ⟨rfl, rfl⟩ : ts = [] ∧ s' = s := by simpa [scan, eq_comm] using ha
    exact hb
  | cons c a ih =>
    simp only [scan, Option.bind_eq_bind, Option.bind_eq_some_iff, Option.pure_def,
      Option.some.injEq, Prod.mk.injEq, Prod.exists, List.cons_append] at ha ⊢
    obtain ⟨first, s₁, hstep, rest, s₂, hscan, rfl, rfl⟩ := ha
    exact ⟨first, s₁, hstep, rest ++ us, s'', ih hscan, (List.append_assoc ..).symm, rfl⟩

lemma scan_step {c : Char} (hc : s.step c = some (ts, s')) : scan s [c] = some (ts, s') := by
  simp [scan, hc]

lemma Closes.of_eq (h : Closes text ts) (hts : ts = us) : Closes text us := hts ▸ h

lemma Closes.append (ha : Closes text ts) (hb : Closes more us) :
    Closes (text ++ more) (ts ++ us) := by
  rw [Closes, String.toList_append]
  exact scan_append ha hb

lemma lexes_iff : Lexes text ts ↔ ∃ first s last, scan .blank text.toList = some (first, s) ∧
    s.finish = some last ∧ ts = first ++ last := by
  simp only [Lexes, tokens, Option.bind_eq_bind, Option.bind_eq_some_iff, Option.pure_def,
    Option.some.injEq, Prod.exists]
  constructor
  · rintro ⟨first, s, hscan, last, hfinish, rfl⟩
    exact ⟨first, s, last, hscan, hfinish, rfl⟩
  · rintro ⟨first, s, last, hscan, hfinish, rfl⟩
    exact ⟨first, s, hscan, last, hfinish, rfl⟩

lemma Closes.lexes (h : Closes text ts) : Lexes text ts :=
  lexes_iff.mpr ⟨ts, .blank, [], h, rfl, (List.append_nil _).symm⟩

lemma Closes.append_lexes (ha : Closes text ts) (hb : Lexes more us) :
    Lexes (text ++ more) (ts ++ us) := by
  obtain ⟨first, s, last, hscan, hfinish, rfl⟩ := lexes_iff.mp hb
  refine lexes_iff.mpr ⟨ts ++ first, s, last, ?_, hfinish, (List.append_assoc ..).symm⟩
  rw [String.toList_append]
  exact scan_append ha hscan

/-- A character that is no part of a name ends the word before it. -/
lemma step_of_finish {c : Char} (hs : s.finish = some ts) (hc : isNamePart c = false) :
    s.step c = s.close c := by
  cases s <;> simp only [State.finish, reduceCtorEq] at hs
  case blank =>
    rw [State.step, State.close, State.finish, Option.bind_eq_bind, Option.bind_some]
    cases State.start c <;> rfl
  case name cs => simp [State.step, hc]
  case zero => simp [State.step, hc]
  case number base n => simp [State.step, hc]

/-- What ends the word before it closes a text. -/
lemma Lexes.append (ha : Lexes text ts) (hb : Separates more us) :
    Closes (text ++ more) (ts ++ us) := by
  obtain ⟨hclose, c, rest, hmore, hc⟩ := hb
  obtain ⟨first, s, last, hscan, hfinish, rfl⟩ := lexes_iff.mp ha
  rw [Closes, hmore] at hclose
  rw [Closes, String.toList_append, List.append_assoc, hmore]
  apply scan_append hscan
  simp only [scan, Option.bind_eq_bind, Option.bind_eq_some_iff, Option.pure_def,
    Option.some.injEq, Prod.mk.injEq, Prod.exists] at hclose ⊢
  obtain ⟨ts₁, s₁, hstart, ts₂, s₂, hrest, rfl, rfl⟩ := hclose
  refine ⟨last ++ ts₁, s₁, ?_, ts₂, .blank, hrest, by simp, rfl⟩
  rw [State.step] at hstart
  simp [step_of_finish hfinish hc, State.close, hfinish, hstart]

end Append

/-!
### Names
-/

/-- Whether a text is a name. -/
def isName (s : String) : Bool :=
  match s.toList with
  | [] => false
  | c :: cs => isNameStart c && cs.all isNamePart

lemma scan_name {past cs : List Char} (h : cs.all isNamePart = true) :
    scan (.name past) cs = some ([], .name (cs.reverse ++ past)) := by
  induction cs generalizing past with
  | nil => rfl
  | cons c cs ih =>
    simp only [List.all_cons, Bool.and_eq_true] at h
    simp [scan, State.step, h.1, ih h.2]

lemma lexes_name {s : String} (h : isName s = true) : Lexes s [.name s] := by
  obtain ⟨c, cs, hs⟩ : ∃ c cs, s.toList = c :: cs := by
    cases hs : s.toList with
    | nil => simp [isName, hs] at h
    | cons c cs => exact ⟨c, cs, rfl⟩
  simp only [isName, hs, Bool.and_eq_true] at h
  have hstart : State.blank.step c = some ([], .name [c]) := by
    simp [State.step, State.start, h.1]
  refine lexes_iff.mpr ⟨[], .name (cs.reverse ++ [c]), [.name s], ?_, ?_, rfl⟩
  · rw [hs, ← List.singleton_append]
    exact scan_append (scan_step hstart) (scan_name h.2)
  · simp [State.finish, ← hs]

/-!
### Numbers
-/

lemma digit?_digitChar {base d : Nat} (hbase : base ≤ 16) (hd : d < base) :
    digit? base d.digitChar = some d := by
  have hvalue : ∀ d < 16, Toml.hexDigit? (Nat.digitChar d) = some d := by decide
  simp [digit?, hvalue d (by omega), hd]

/-- Digits are read from the first to the last. -/
lemma scan_toDigits {base : Nat} (hbase : 1 < base) (s₀ : State) (s : Nat → State) (m : Nat)
    (hfirst : ∀ d < base, s₀.step d.digitChar = some ([], s d))
    (hnext : ∀ n d, 0 < n → d < base → base * n + d ≤ m →
      (s n).step d.digitChar = some ([], s (base * n + d))) :
    scan s₀ (base.toDigits m) = some ([], s m) := by
  -- The last digit is split off, since the digits before it are those of the quotient.
  induction m using Nat.strongRecOn with
  | ind m ih =>
    by_cases hm : m < base
    · rw [Nat.toDigits_of_lt_base hm]
      exact scan_step (hfirst m hm)
    · have hdiv : m / base < m := Nat.div_lt_self (by omega) hbase
      have hmod := Nat.div_add_mod m base
      have hfront := ih _ hdiv fun n d hn hd hle => hnext n d hn hd (by omega)
      have hlast := hnext (m / base) (m % base) (Nat.div_pos (by omega) (by omega))
        (Nat.mod_lt _ (by omega)) (by omega)
      rw [hmod] at hlast
      rw [Nat.toDigits_of_base_le hbase (by omega)]
      exact scan_append hfront (scan_step hlast)

lemma step_number {base d : Nat} (hbase : base ≤ 16) (hd : d < base) (n : Nat) :
    (State.number base n).step d.digitChar = some ([], .number base (base * n + d)) := by
  have hpart : ∀ d < 16, isNamePart (Nat.digitChar d) = true ∧ Nat.digitChar d ≠ '_' := by decide
  simp [State.step, hpart d (by omega), digit?_digitChar hbase hd]

lemma lexes_decimal (n : Nat) : Lexes (toString n) [.number n] := by
  have hscan := scan_toDigits (by decide : 1 < 10) .blank
    (fun n => if n = 0 then .zero else .number 10 n) n (by decide) (by
      intro n d hn hd _
      rw [if_neg (by omega), if_neg (by omega)]
      exact step_number (by decide) hd n)
  have hfinish : (if n = 0 then State.zero else .number 10 n).finish = some [.number n] := by
    split
    case isTrue hn => rw [hn, State.finish]
    case isFalse => rfl
  rw [← String.toList_ofList (l := Nat.toDigits 10 n), ← Nat.toString_eq_ofList_toDigits] at hscan
  exact lexes_iff.mpr ⟨[], _, [.number n], hscan, hfinish, rfl⟩

lemma lexes_hex (n : Nat) : Lexes (Text.hex n) [.number n] := by
  have hscan : scan .hex (String.ofList (Text.hexDigits n)).toList = some ([], .number 16 n) := by
    rw [String.toList_ofList]
    exact scan_toDigits (by decide) .hex (.number 16) n (by decide) fun n d _ hd _ =>
      step_number (by decide) hd n
  have hmark : scan .blank "0x".toList = some ([], .hex) := rfl
  refine lexes_iff.mpr ⟨[], .number 16 n, [.number n], ?_, rfl, rfl⟩
  rw [Text.hex, String.toList_append]
  exact scan_append hmark hscan

/-!
### Quoted text
-/

lemma scalar?_toNat (c : Char) : Toml.scalar? c.toNat = some c := by
  have hc : c.toNat.isValidChar := c.valid
  rw [Toml.scalar?, dif_pos hc]
  rfl

lemma step_code (past : List Char) {count d : Nat} (hd : d < 16) (n : Nat) (hcount : count < 6) :
    (State.code past count n).step d.digitChar =
      some ([], .code past (count + 1) (16 * n + d)) := by
  have hother : ∀ d < 16, Nat.digitChar d ≠ '_' ∧ Nat.digitChar d ≠ '\x7d' := by decide
  simp [State.step, State.coded, hother d hd, hcount, digit?_digitChar (Nat.le_refl 16) hd]

/-- A code point is read from its digits, of which it has at most six. -/
lemma scan_code (past : List Char) (c : Char) :
    scan (.brace past) (['{'] ++ Text.hexDigits c.toNat ++ ['}']) =
      some ([], .text (c :: past)) := by
  have hdigits : scan (.code past 0 0) (Text.hexDigits c.toNat) =
      some ([], .code past (Text.hexDigits c.toNat).length c.toNat) := by
    apply scan_toDigits (by decide) _ fun n => .code past (Text.hexDigits n).length n
    · intro d hd
      rw [Text.hexDigits, Nat.toDigits_of_lt_base hd]
      simpa using step_code past hd 0 (Nat.succ_pos 5)
    · intro n d hn hd hle
      have hlength : (Text.hexDigits (16 * n + d)).length = (Text.hexDigits n).length + 1 := by
        rw [Text.hexDigits, Nat.toDigits_of_base_le (by decide) (by omega),
          show (16 * n + d) / 16 = n by omega]
        simp [Text.hexDigits]
      have hmax : (Text.hexDigits (16 * n + d)).length ≤ 6 := by
        rw [Text.hexDigits, Nat.length_toDigits_le_iff (by decide) (by decide)]
        have hc : c.toNat.isValidChar := c.valid
        omega
      rw [hlength] at hmax ⊢
      exact step_code past hd n hmax
  have hclose : (State.code past (Text.hexDigits c.toNat).length c.toNat).step '}' =
      some ([], .text (c :: past)) := by
    simp [State.step, State.coded, Text.hexDigits, Nat.toDigits_ne_nil, scalar?_toNat]
  have hopen : scan (.brace past) ['\x7b'] = some ([], .code past 0 0) := rfl
  exact scan_append (scan_append hopen hdigits) (scan_step hclose)

lemma scan_escape (past : List Char) (c : Char) :
    scan (.text past) (Text.escape c) = some ([], .text (c :: past)) := by
  unfold Text.escape
  split
  case h_7 hnul htab hcr hnl hback hquote =>
    split
    · apply scan_step
      rw [State.step, State.quoted, if_neg hquote, if_neg hback, if_neg hcr]
    · have hbrace : scan (.text past) ['\\', 'u'] = some ([], .brace past) := rfl
      exact scan_append hbrace (scan_code past c)
  all_goals rfl

lemma scan_escapes (past cs : List Char) :
    scan (.text past) (cs.flatMap Text.escape) = some ([], .text (cs.reverse ++ past)) := by
  induction cs generalizing past with
  | nil => rfl
  | cons c cs ih =>
    rw [List.flatMap_cons, List.reverse_cons, List.append_assoc]
    exact scan_append (scan_escape past c) (ih (c :: past))

lemma closes_quote (s : String) : Closes (Text.quote s) [.text s] := by
  have hend : (State.text s.toList.reverse).step '"' = some ([.text s], .blank) := by
    simp [State.step, State.quoted]
  have hbody := scan_escapes [] s.toList
  rw [List.append_nil] at hbody
  rw [Closes, Text.quote, String.toList_ofList]
  have hopen : scan .blank ['"'] = some ([], .text []) := rfl
  exact scan_append (scan_append hopen hbody) (scan_step hend)

-- The reader knows more spellings than the constants are written with.
example : tokens "\"\\x41\\u\x7b0_42\x7d\\\n  C\" 0x_1F 1_0" =
    some [.text "ABC", .number 31, .number 10] := by
  decide

end Intercore.Source
