import Intercore.Toml.Atom
import Intercore.Toml.Text

/-!
# Reading a document

Reading a TOML document, version 1.1 of the format.

Readers take characters off the front of what remains and fail where the document is
malformed. Arrays and inline tables hold each other; every step of the readers for them uses
up one unit of fuel, and there is more fuel than there are characters to step over.
-/

namespace Intercore.Toml

/-- Takes something off the front of the remaining characters, or fails. -/
abbrev Reader := StateT (List Char) Option

namespace Reader

/-- How deeply arrays and inline tables may be nested, and how many parts a key may have. -/
def maxDepth : Nat := 80

/-- The next character, if there is one. -/
def peek : Reader (Option Char) := return (← get).head?

/-- Whether the next character is `c`, which is then taken. -/
def take (c : Char) : Reader Bool := do
  match ← get with
  | d :: rest => if d = c then set rest; return true else return false
  | [] => return false

/-- Takes the character `c`, which must come next. -/
def expect (c : Char) : Reader Unit := do
  unless ← take c do failure

/-- Takes the longest run of characters with a property. -/
def run (p : Char → Bool) : Reader (List Char) := do
  let cs ← get
  set (cs.dropWhile p)
  return cs.takeWhile p

/-- Skips blanks and tabs. -/
def blanks : Reader Unit := do
  let _ ← run isBlank

/-- What remains after blanks, newlines and comments. -/
def dropGap? (inComment : Bool) (cs : List Char) : Option (List Char) :=
  match cs with
  | [] => some []
  | '\r' :: '\n' :: rest => dropGap? false rest
  | c :: rest =>
    if c = '\n' then dropGap? false rest
    else if inComment then if isTextual c then dropGap? true rest else none
    else if isBlank c then dropGap? false rest
    else if c = '#' then dropGap? true rest
    else some cs

/-- Skips blanks, newlines and comments. -/
def gap : Reader Unit := do
  set (← dropGap? false (← get))

/-- The end of a line: blanks, perhaps a comment, then a newline or the end of the text. -/
def lineEnd : Reader Unit := do
  blanks
  if ← take '#' then
    let _ ← run isTextual
  let carriage ← take '\r'
  if ← take '\n' then return
  unless !carriage && (← get).isEmpty do failure

/-- One part of a key, bare or quoted. -/
def keyPart : Reader String := do
  if ← take '"' then lineText? '"'
  else if ← take '\'' then lineText? '\''
  else
    let cs ← run fun c => c.isAlphanum || c = '_' || c = '-'
    if cs.isEmpty then failure else return String.ofList cs

/-- The parts of a key, separated by dots that may have blanks around them. -/
def key : Reader Key := do
  let parts ← parts ((← get).length + 1)
  if maxDepth < parts.length then failure
  return ⟨parts.dropLast, parts.getLast?.getD ""⟩
where
  parts : Nat → Reader (List String)
    | 0 => failure
    | fuel + 1 => do
      let part ← keyPart
      blanks
      if ← take '.' then
        blanks
        return part :: (← parts fuel)
      else return [part]

mutual

/-- A value of any kind, with `depth` more levels of nesting allowed. -/
def value : Nat → Nat → Reader Value
  | 0, _ => failure
  | fuel + 1, depth => do
    if ← take '"' then return .string (← text? '"')
    else if ← take '\'' then return .string (← text? '\'')
    else if ← take '[' then
      if depth = 0 then failure else return .array false (← items fuel (depth - 1))
    else if ← take '\x7b' then
      if depth = 0 then failure
      else
        gap
        return .table .inline (← entries fuel (depth - 1) [])
    else
      let (cs, rest) := splitAtom (← get)
      set rest
      atom? cs

/-- The items of an array, up to its closing bracket. -/
def items : Nat → Nat → Reader (List Value)
  | 0, _ => failure
  | fuel + 1, depth => do
    gap
    if ← take ']' then return []
    let v ← value fuel depth
    gap
    if ← take ',' then return v :: (← items fuel depth)
    expect ']'
    return [v]

/-- The rest of an inline table, up to its closing brace, added to the entries before. Newlines
may stand anywhere in it but within a key. -/
def entries : Nat → Nat → Entries → Reader Entries
  | 0, _, _ => failure
  | fuel + 1, depth, es => do
    if ← take '\x7d' then return es
    let k ← key
    gap
    expect '='
    gap
    let v ← value fuel depth
    let es ← es.put? k v
    gap
    if ← take ',' then
      gap
      entries fuel depth es
    else
      expect '\x7d'
      return es

end

/-- A key, an equals sign and a value, on a line of their own. -/
def assignment : Reader (Key × Value) := do
  let k ← key
  expect '='
  blanks
  let v ← value (2 * (← get).length + 2) maxDepth
  lineEnd
  return (k, v)

/-- A header, on a line of its own. -/
def header : Reader (Bool × Key) := do
  expect '['
  let repeated ← take '['
  blanks
  let k ← key
  expect ']'
  if repeated then expect ']'
  lineEnd
  return (repeated, k)

/-- Assignments up to the next header or the end of the text. -/
def assignments : Nat → Reader (List (Key × Value))
  | 0 => failure
  | fuel + 1 => do
    gap
    match ← peek with
    | none | some '[' => return []
    | some _ => return (← assignment) :: (← assignments fuel)

/-- Headers with their assignments, up to the end of the text. -/
def sections : Nat → Reader (List Section)
  | 0 => failure
  | fuel + 1 => do
    match ← peek with
    | none => return []
    | some _ =>
      let (repeated, k) ← header
      let assigned ← assignments (fuel + 1)
      return ⟨repeated, k, assigned⟩ :: (← sections fuel)

def document : Reader Document := do
  let fuel := (← get).length + 1
  return ⟨← assignments fuel, ← sections fuel⟩

end Reader

/-- The table that a text describes. A byte order mark may come first. -/
def parse? (text : String) : Option Entries := do
  let cs := match text.toList with
    | '\ufeff' :: rest => rest
    | cs => cs
  let (d, _) ← Reader.document cs
  d.entries?

end Intercore.Toml
