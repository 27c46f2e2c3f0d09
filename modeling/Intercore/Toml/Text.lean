/-!
# Text within quotes

Quoted text: basic and literal strings, on one line or on several.

The text is read by an automaton that takes one character at a time, so that each rule of the
format is one of its transitions.
-/

namespace Intercore.Toml

/-- Characters that may stand in text and comments: all but controls, the tab excepted. -/
def isTextual (c : Char) : Bool := c = '\t' || (0x20 ≤ c.toNat && c.toNat ≠ 0x7f)

/-- The value of a digit in base sixteen. -/
def hexDigit? (c : Char) : Option Nat :=
  if '0' ≤ c && c ≤ '9' then some (c.toNat - '0'.toNat)
  else if 'a' ≤ c && c ≤ 'f' then some (c.toNat - 'a'.toNat + 10)
  else if 'A' ≤ c && c ≤ 'F' then some (c.toNat - 'A'.toNat + 10)
  else none

/-- A code point, unless it is too large or a surrogate. -/
def scalar? (code : Nat) : Option Char :=
  if h : code.isValidChar then some (Char.ofNatAux code h) else none

/-- One of the four kinds of quoted text. -/
structure Style where
  mark : Char
  /-- Whether a backslash starts an escape. -/
  escapes : Bool
  /-- Whether three marks enclose the text, which then may hold newlines. -/
  multiline : Bool

namespace Style

/-- Where the reader of a quoted text stands. -/
inductive Stance
  | plain
  /-- After one or two marks, which are text unless a third one follows. -/
  | marks (n : Nat)
  /-- After the closing marks, the last `n` of which belonged to the text. -/
  | closed (n : Nat)
  /-- After a carriage return, which only a newline may follow. -/
  | carriage
  /-- After a backslash. -/
  | escape
  /-- Within a code point, with `left + 1` digits to come. -/
  | code (left value : Nat)
  /-- After a backslash that ends its line; blanks are skipped, a newline must be among them. -/
  | fold (newline : Bool)
  /-- After a carriage return in such a place. -/
  | foldCarriage
  deriving DecidableEq, Repr

/-- A character that stands for itself, or starts something else. -/
def plain (s : Style) (c : Char) : Option (List Char × Stance) :=
  if c = s.mark then some ([], if s.multiline then .marks 1 else .closed 2)
  else if c = '\\' && s.escapes then some ([], .escape)
  else if isTextual c then some ([c], .plain)
  else if c = '\n' && s.multiline then some ([c], .plain)
  else if c = '\r' && s.multiline then some ([c], .carriage)
  else none

/-- The character after a backslash. -/
def escaped (s : Style) (c : Char) : Option (List Char × Stance) :=
  match c with
  | 'b' => some (['\x08'], .plain)
  | 't' => some (['\t'], .plain)
  | 'n' => some (['\n'], .plain)
  | 'f' => some (['\x0c'], .plain)
  | 'r' => some (['\r'], .plain)
  | 'e' => some (['\x1b'], .plain)
  | '"' => some (['"'], .plain)
  | '\\' => some (['\\'], .plain)
  | 'x' => some ([], .code 1 0)
  | 'u' => some ([], .code 3 0)
  | 'U' => some ([], .code 7 0)
  | ' ' | '\t' => if s.multiline then some ([], .fold false) else none
  | '\n' => if s.multiline then some ([], .fold true) else none
  | '\r' => if s.multiline then some ([], .foldCarriage) else none
  | _ => none

/-- One transition: the text that is now certain, and the new stance. -/
def step (s : Style) : Stance → Char → Option (List Char × Stance)
  | .plain, c => s.plain c
  | .marks n, c =>
    if c = s.mark then some ([], if n < 2 then .marks (n + 1) else .closed 0)
    else do
      let (text, stance) ← s.plain c
      return (List.replicate n s.mark ++ text, stance)
  | .closed _, _ => none
  | .carriage, c => if c = '\n' then some ([c], .plain) else none
  | .escape, c => s.escaped c
  | .code left value, c => do
    let value := 16 * value + (← hexDigit? c)
    match left with
    | 0 => return ([← scalar? value], .plain)
    | left + 1 => return ([], .code left value)
  | .fold newline, c =>
    if c = ' ' || c = '\t' then some ([], .fold newline)
    else if c = '\n' then some ([], .fold true)
    else if c = '\r' then some ([], .foldCarriage)
    else if newline then s.plain c
    else none
  | .foldCarriage, c => if c = '\n' then some ([], .fold true) else none

/-- The text up to its closing marks, and what follows these. Two marks right before the
closing ones still belong to the text. -/
def body (s : Style) : Stance → List Char → Option (List Char × List Char)
  | .closed _, [] => some ([], [])
  | .closed n, c :: rest =>
    if c = s.mark && n < 2 then do
      let (text, after) ← s.body (.closed (n + 1)) rest
      return (c :: text, after)
    else some ([], c :: rest)
  | _, [] => none
  | stance, c :: rest => do
    let (text, stance) ← s.step stance c
    let (more, after) ← s.body stance rest
    return (text ++ more, after)

end Style

/-- The text after an opening mark on one line. -/
def lineText? (mark : Char) (cs : List Char) : Option (String × List Char) := do
  let (text, rest) ← Style.body ⟨mark, mark = '"', false⟩ .plain cs
  return (String.ofList text, rest)

/-- The text after an opening mark. Three marks open a text of several lines, whose first
newline is dropped if it follows at once. -/
def text? (mark : Char) (cs : List Char) : Option (String × List Char) :=
  match cs with
  | a :: b :: rest =>
    if a = mark && b = mark then do
      let (text, rest) ← Style.body ⟨mark, mark = '"', true⟩ .plain (dropNewline rest)
      return (String.ofList text, rest)
    else lineText? mark cs
  | _ => lineText? mark cs
where
  dropNewline : List Char → List Char
    | '\n' :: rest => rest
    | '\r' :: '\n' :: rest => rest
    | rest => rest

end Intercore.Toml
