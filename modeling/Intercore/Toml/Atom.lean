import Intercore.Toml.Value

/-!
# Numbers and moments

Values written without quotes or brackets: booleans, integers, floats and moments in time.

What a document must get right about an integer is its outline and where the underscores are.
Whether the digits in that outline denote a number is a question for those who read the value.
-/

namespace Intercore.Toml

/-- The characters that separate words on a line. -/
def isBlank (c : Char) : Bool := c = ' ' || c = '\t'

/-- The characters that end a value. -/
def isDelimiter (c : Char) : Bool :=
  isBlank c || c ∈ ['\r', '\n', '#', '=', ',', '[', ']', '\x7b', '\x7d']

/-- The digits of base sixteen. -/
def isHexDigit (c : Char) : Bool :=
  c.isDigit || ('a' ≤ c.toLower && c.toLower ≤ 'f')

/-- Leaves out the underscores, each of which stands between two digits. -/
def dropUnderscores? (isDigit : Char → Bool) (cs : List Char) : Option (List Char) := go false cs
where
  go : Bool → List Char → Option (List Char)
    | _, [] => some []
    | afterDigit, '_' :: rest =>
      if afterDigit && rest.head?.any isDigit then go false rest else none
    | _, c :: rest => (go (isDigit c) rest).map (c :: ·)

/-- The number written by digits in a base. -/
def ofDigits (base : Nat) (ds : List Char) : Nat :=
  ds.foldl (fun n c => base * n + value c) 0
where
  value (c : Char) : Nat :=
    if c.isDigit then c.toNat - '0'.toNat else c.toLower.toNat - 'a'.toNat + 10

/-- Splits off a leading sign: whether it is a minus, and the rest. -/
def splitSign : List Char → Bool × List Char
  | '-' :: rest => (true, rest)
  | '+' :: rest => (false, rest)
  | cs => (false, cs)

/-- Whether the characters have the outline of a decimal integer: digits without a leading zero,
or such digits, an underscore and then anything that does not make a float of it. -/
def isDecimalOutline (cs : List Char) : Bool :=
  let rest := cs.dropWhile Char.isDigit
  (cs.head? ≠ some '0' || cs.length = 1)
    && (!cs.isEmpty && rest.isEmpty
      || rest.head? = some '_' && rest.all (· ∉ [' ', '.', 'e', 'E']))

/-- An integer: decimal with an optional sign, or in base 16, 8 or 2 without one. -/
def integer? (cs : List Char) : Option Value :=
  match cs with
  | '0' :: 'x' :: rest => inBase? 16 isHexDigit rest
  | '0' :: 'o' :: rest => inBase? 8 (fun c => '0' ≤ c && c ≤ '7') rest
  | '0' :: 'b' :: rest => inBase? 2 (fun c => c = '0' || c = '1') rest
  | _ => do
    let (negative, unsigned) := splitSign cs
    let ds ← dropUnderscores? isHexDigit unsigned
    if isDecimalOutline unsigned then return denoted 10 Char.isDigit negative ds else none
where
  inBase? (base : Nat) (isDigit : Char → Bool) (unsigned : List Char) : Option Value := do
    let ds ← dropUnderscores? isDigit unsigned
    if ds.all isDigit then return denoted base isDigit false ds else none
  denoted (base : Nat) (isDigit : Char → Bool) (negative : Bool) (ds : List Char) : Value :=
    if ds.isEmpty || !ds.all isDigit then .malformed (String.ofList cs)
    else if negative then .integer (-ofDigits base ds)
    else .integer (ofDigits base ds)

/-- Digits, perhaps with underscores among them. -/
def isDigitRun (cs : List Char) : Bool :=
  cs.any Char.isDigit && cs.all fun c => c.isDigit || c = '_'

/-- Whether the characters are a float: a decimal number with a fraction, an exponent or both,
or one of the special values. -/
def isFloat (cs : List Char) : Bool :=
  let (_, unsigned) := splitSign cs
  if unsigned = "inf".toList || unsigned = "nan".toList then true
  else
    let mantissa := unsigned.takeWhile fun c => c ≠ 'e' && c ≠ 'E'
    let whole := mantissa.takeWhile (· ≠ '.')
    let fraction := (mantissa.drop whole.length).drop 1
    let exponent := (unsigned.drop mantissa.length).drop 1
    let hasFraction := whole.length < mantissa.length
    let hasExponent := mantissa.length < unsigned.length
    (hasFraction || hasExponent)
      && isDigitRun whole && (whole.head? ≠ some '0' || whole.countP Char.isDigit = 1)
      && (!hasFraction || isDigitRun fraction)
      && (!hasExponent || isDigitRun (splitSign exponent).2)
      && (dropUnderscores? Char.isDigit unsigned).isSome

/-- Reads a number of exactly `n` digits. -/
def fixed? (n : Nat) (cs : List Char) : Option (Nat × List Char) :=
  let ds := cs.take n
  if ds.length = n && ds.all Char.isDigit then some (ofDigits 10 ds, cs.drop n) else none

def daysIn (year month : Nat) : Nat :=
  if month = 2 then if year % 4 = 0 && (year % 100 ≠ 0 || year % 400 = 0) then 29 else 28
  else if month = 4 || month = 6 || month = 9 || month = 11 then 30
  else 31

/-- Reads a date such as `1979-05-27` and answers with what follows it. -/
def date? (cs : List Char) : Option (List Char) := do
  let (year, cs) ← fixed? 4 cs
  let '-' :: cs := cs | none
  let (month, cs) ← fixed? 2 cs
  let '-' :: cs := cs | none
  let (day, cs) ← fixed? 2 cs
  if 1 ≤ month && month ≤ 12 && 1 ≤ day && day ≤ daysIn year month then return cs else none

/-- Reads a time of day, with optional seconds and fraction, and answers with what follows. -/
def time? (cs : List Char) : Option (List Char) := do
  let (hour, cs) ← fixed? 2 cs
  let ':' :: cs := cs | none
  let (minute, cs) ← fixed? 2 cs
  if hour ≤ 23 && minute ≤ 59 then seconds? cs else none
where
  seconds? (cs : List Char) : Option (List Char) :=
    match cs with
    | ':' :: rest => do
      let (second, rest) ← fixed? 2 rest
      if second ≤ 60 then fraction? rest else none
    | _ => some cs
  fraction? (cs : List Char) : Option (List Char) :=
    match cs with
    | '.' :: rest =>
      if rest.head?.any Char.isDigit then some (rest.dropWhile Char.isDigit) else none
    | _ => some cs

/-- Whether the characters are a distance from universal time, or missing. -/
def isOffset (cs : List Char) : Bool :=
  match cs with
  | [] => true
  | ['Z'] | ['z'] => true
  | c :: rest =>
    (c = '+' || c = '-') &&
      match fixed? 2 rest with
      | some (hour, ':' :: rest) =>
        match fixed? 2 rest with
        | some (minute, []) => hour ≤ 23 && minute ≤ 59
        | _ => false
      | _ => false

/-- Whether the characters are a date, a time of day or both. -/
def isMoment (cs : List Char) : Bool :=
  match date? cs with
  | some [] => true
  | some (c :: rest) => (c = 'T' || c = 't' || c = ' ') && (time? rest).any isOffset
  | none => time? cs = some []

/-- The value written by the characters. -/
def atom? (cs : List Char) : Option Value :=
  if cs = "true".toList then some (.boolean true)
  else if cs = "false".toList then some (.boolean false)
  else if isMoment cs then some (.moment (String.ofList cs))
  else if isFloat cs then some (.float (String.ofList cs))
  else integer? cs

/-- Whether a value before a blank may go on with these characters, as a date does with its
time of day. -/
def goesOn : List Char → Bool
  | [] => false
  | c :: rest =>
    if isBlank c then goesOn rest else !isDelimiter c && c ∉ ['.', '"', '\'']

/-- Splits off the characters of one value, with the blanks that it goes on after. -/
def splitAtom : List Char → List Char × List Char
  | [] => ([], [])
  | c :: rest =>
    if !isDelimiter c || isBlank c && goesOn rest then
      let (atom, after) := splitAtom rest
      (c :: atom, after)
    else ([], c :: rest)

end Intercore.Toml
